import ScriptFrontend.Proofs.Number.Integer
import ScriptFrontend.Proofs.Tree.Leaves

/-!
# Texts of signed integers

Every text is a sign or none, the digits right after it and a rest (`LeadingDigits`), and from these
three parts the result of reading it can be told (`readSigned64_eq_ite`). So an integer leaf has
the number that its literal writes, and a literal that writes none in range is refused for the
fault it has (`readsInteger_of_int`): `Faulty` says for which, also where there is more than one.

The reader counts in unbounded integers and looks at the range after each digit. `readChecked` does
the same with 64-bit arithmetic whose every step is checked (`readChecked_eq`).
-/

namespace ScriptFrontend

namespace Number

/-- A sign that leads the text is taken off, one at the most. -/
inductive LeadingSign : List Char → Bool → List Char → Prop where
  | minus (body : List Char) : LeadingSign ('-' :: body) true body
  | plus (body : List Char) : LeadingSign ('+' :: body) false body
  | none {body : List Char} (h : ∀ c ∈ body.head?, c ≠ '-' ∧ c ≠ '+') :
    LeadingSign body false body

/-- The digits right after the sign, all of them, and what comes then. -/
structure LeadingDigits (text : List Char) (negative : Bool) (run rest : List Char) : Prop where
  sign : LeadingSign text negative (run ++ rest)
  digits : ∀ c ∈ run, c.isDigit = true
  stops : ∀ c ∈ rest.head?, c.isDigit = false

/-- The text is a sign or none and one or more digits, and `value` is the number they write. -/
def Writes (text : List Char) (value : Int) : Prop :=
  ∃ negative digits, LeadingSign text negative digits ∧ digits ≠ [] ∧
    (∀ c ∈ digits, c.isDigit = true) ∧ value = signed negative (decimalValue digits)

/-- The digits after the sign leave the range, whatever comes after them. -/
def Overflows (text : List Char) (negative : Bool) : Prop :=
  ∃ run rest, LeadingDigits text negative run rest ∧ ¬ Fits64 (signed negative (decimalValue run))

/-- The fault of a text that writes no number in range. -/
def Faulty (text : List Char) : IntegerFault → Prop
  | .empty => text = []
  | .tooLarge => Overflows text false
  | .tooSmall => Overflows text true
  | .invalidDigit =>
    text ≠ [] ∧ (∀ negative, ¬ Overflows text negative) ∧ ∀ value, ¬ Writes text value

/-! ## The parts of a text -/

theorem leadingSign_iff {text body : List Char} {negative : Bool} :
    LeadingSign text negative body ↔ splitSign text = (negative, body) := by
  constructor
  · intro h
    cases h with
    | minus => rfl
    | plus => rfl
    | none h =>
      unfold splitSign
      split
      · exact absurd rfl (h '-' rfl).1
      · exact absurd rfl (h '+' rfl).2
      · rfl
  · intro h
    unfold splitSign at h
    split at h
    · cases h
      exact .minus _
    · cases h
      exact .plus _
    · next hminus hplus =>
      cases h
      refine .none fun c hc => ?_
      obtain ⟨cs, rfl⟩ := List.head?_eq_some_iff.mp hc
      exact ⟨fun heq => hminus cs (heq ▸ rfl), fun heq => hplus cs (heq ▸ rfl)⟩

theorem exists_leadingDigits (text : List Char) :
    ∃ negative run rest, LeadingDigits text negative run rest := by
  obtain ⟨negative, body, hsplit⟩ : ∃ negative body, splitSign text = (negative, body) :=
    ⟨_, _, rfl⟩
  refine ⟨negative, body.takeWhile Char.isDigit, body.dropWhile Char.isDigit, ?_, ?_, ?_⟩
  · rw [List.takeWhile_append_dropWhile]
    exact leadingSign_iff.mpr hsplit
  · exact fun c hc => List.all_eq_true.mp List.all_takeWhile c hc
  · exact stops_dropWhile Char.isDigit body

namespace LeadingDigits

variable {text run rest : List Char} {negative : Bool}

theorem unique (h : LeadingDigits text negative run rest) {negative' : Bool}
    {run' rest' : List Char} (h' : LeadingDigits text negative' run' rest') :
    negative = negative' ∧ run = run' ∧ rest = rest' := by
  have hsign := (leadingSign_iff.mp h.sign).symm.trans (leadingSign_iff.mp h'.sign)
  obtain ⟨hnegative, hbody⟩ := Prod.mk.inj hsign
  refine ⟨hnegative, ?_, ?_⟩
  · rw [← takeWhile_append_of_stops h.digits h.stops, hbody,
      takeWhile_append_of_stops h'.digits h'.stops]
  · rw [← dropWhile_append_of_stops h.digits h.stops, hbody,
      dropWhile_append_of_stops h'.digits h'.stops]

theorem overflows_iff (h : LeadingDigits text negative run rest) {sign : Bool} :
    Overflows text sign ↔ sign = negative ∧ ¬ Fits64 (signed negative (decimalValue run)) := by
  constructor
  · rintro ⟨run', rest', h', hout⟩
    obtain ⟨rfl, rfl, rfl⟩ := h.unique h'
    exact ⟨rfl, hout⟩
  · rintro ⟨rfl, hout⟩
    exact ⟨run, rest, h, hout⟩

/-- A text writes a number if it ends with its first digits. -/
theorem writes_iff (h : LeadingDigits text negative run rest) {value : Int} :
    Writes text value ↔ (run ≠ [] ∧ rest = []) ∧ value = signed negative (decimalValue run) := by
  constructor
  · rintro ⟨sign, digits, hsign, hne, hdigits, hvalue⟩
    have h' : LeadingDigits text sign digits [] :=
      ⟨by rwa [List.append_nil], hdigits, fun _ hc => by cases hc⟩
    obtain ⟨rfl, rfl, rfl⟩ := h.unique h'
    exact ⟨⟨hne, rfl⟩, hvalue⟩
  · rintro ⟨⟨hne, rfl⟩, hvalue⟩
    have hsign := h.sign
    rw [List.append_nil] at hsign
    exact ⟨negative, run, hsign, hne, h.digits, hvalue⟩

end LeadingDigits

/-! ## Reading the parts -/

theorem signed_zero (negative : Bool) : signed negative 0 = 0 := by
  cases negative <;> rfl

theorem appendDigits_of_stops {negative : Bool} {value : Int} {rest : List Char}
    (h : ∀ c ∈ rest.head?, c.isDigit = false) :
    appendDigits negative value rest = if rest = [] then .ok value else .error .invalidDigit := by
  cases rest with
  | nil => rfl
  | cons c cs => simp [appendDigits, h c rfl]

/-- The parts of a text tell what reading it gives. The range is looked at before the rest is. -/
theorem readSigned64_eq_ite {text : String} {negative : Bool} {run rest : List Char}
    (h : LeadingDigits text.toList negative run rest) :
    readSigned64 text =
      if text = "" then .error .empty
      else if ¬ Fits64 (signed negative (decimalValue run)) then .error (.overflow negative)
      else if run ≠ [] ∧ rest = [] then .ok (.ofInt (signed negative (decimalValue run)))
      else .error .invalidDigit := by
  have hzero : Fits64 (signed negative 0) := by rw [signed_zero]; decide
  have hrun := appendDigits_run h.digits hzero rest
  rw [signed_zero, extendValue_zero, appendDigits_of_stops h.stops] at hrun
  have hsplit := leadingSign_iff.mp h.sign
  unfold readSigned64
  by_cases hempty : text = ""
  · simp [hempty]
  · rw [if_neg hempty, if_neg (by simpa using hempty), hsplit]
    cases hbody : run ++ rest with
    | nil =>
      obtain ⟨rfl, rfl⟩ := List.append_eq_nil_iff.mp hbody
      simp [decimalValue, hzero]
    | cons c cs =>
      have hne : rest = [] → run ≠ [] := by
        rintro rfl rfl
        cases hbody
      rw [hbody] at hrun
      show (appendDigits negative 0 (c :: cs)).map Int64.ofInt = _
      rw [hrun]
      by_cases hfits : Fits64 (signed negative (decimalValue run))
      · rw [if_pos hfits, if_neg (not_not_intro hfits)]
        by_cases hrest : rest = []
        · rw [if_pos hrest, if_pos ⟨hne hrest, hrest⟩]
          rfl
        · rw [if_neg hrest, if_neg fun h => hrest h.2]
          rfl
      · rw [if_neg hfits, if_pos hfits]
        rfl

/-! ## Checked arithmetic -/

/-- The number as a 64-bit integer, if it is in range. -/
def checked (value : Int) : Option Int64 := if Fits64 value then some (.ofInt value) else none

def checkedMul (a b : Int64) : Option Int64 := checked (a.toInt * b.toInt)

def checkedAdd (a b : Int64) : Option Int64 := checked (a.toInt + b.toInt)

def checkedSub (a b : Int64) : Option Int64 := checked (a.toInt - b.toInt)

/-- One more digit away from zero, by two operations that are each checked. -/
def appendDigit? (negative : Bool) (value digit : Int64) : Option Int64 :=
  (checkedMul value 10).bind fun tenfold =>
    if negative then checkedSub tenfold digit else checkedAdd tenfold digit

/-- Appends digits to `value`, all in 64 bits. -/
def appendChecked (negative : Bool) (value : Int64) : List Char → Except IntegerFault Int64
  | [] => .ok value
  | c :: cs =>
    if c.isDigit then
      match appendDigit? negative value (.ofNat (digitValue c)) with
      | some value => appendChecked negative value cs
      | none => .error (.overflow negative)
    else
      .error .invalidDigit

/-- Reads an optional sign and one or more digits, all in 64 bits. -/
def readChecked (text : String) : Except IntegerFault Int64 :=
  if text.isEmpty then
    .error .empty
  else
    match splitSign text.toList with
    | (_, []) => .error .invalidDigit
    | (negative, digits) => appendChecked negative 0 digits

theorem toInt_ofInt_of_fits64 {value : Int} (h : Fits64 value) :
    (Int64.ofInt value).toInt = value := by
  rw [Fits64, Int64.toInt_minValue, Int64.toInt_maxValue] at h
  exact Int64.toInt_ofInt_of_le (by omega) (by omega)

/-- The product leaves the range only if the sum or difference does. -/
theorem appendDigit?_eq {negative : Bool} {value : Int64} {n digit : Nat}
    (hvalue : value.toInt = signed negative n) (hdigit : digit ≤ 9) :
    appendDigit? negative value (.ofNat digit) = checked (signed negative (10 * n + digit)) := by
  have hten : (10 : Int64).toInt = 10 := rfl
  have hd : (Int64.ofNat digit).toInt = digit := Int64.toInt_ofNat_of_lt (by omega)
  have hmul : value.toInt * (10 : Int64).toInt = signed negative (10 * n) := by
    rw [hvalue, hten]
    cases negative <;> simp only [signed, Bool.false_eq_true, reduceIte] <;> omega
  rw [appendDigit?, checkedMul, hmul]
  by_cases hfits : Fits64 (signed negative (10 * n))
  · rw [checked, if_pos hfits, Option.bind_some, checkedSub, checkedAdd,
      toInt_ofInt_of_fits64 hfits, hd]
    cases negative with
    | true =>
      refine congrArg checked ?_
      simp only [signed, reduceIte]
      omega
    | false => rfl
  · have hout : ¬ Fits64 (signed negative (10 * n + digit)) := fun h =>
      hfits (h.of_le (Nat.le_add_right _ _))
    rw [checked, if_neg hfits, checked, if_neg hout, Option.bind_none]

theorem appendChecked_eq {negative : Bool} {value : Int64} {n : Nat}
    (hvalue : value.toInt = signed negative n) (cs : List Char) :
    appendChecked negative value cs = (appendDigits negative value.toInt cs).map Int64.ofInt := by
  induction cs generalizing value n with
  | nil => rw [appendChecked, appendDigits, Except.map, Int64.ofInt_toInt]
  | cons c cs ih =>
    by_cases hc : c.isDigit = true
    · rw [appendChecked, if_pos hc, appendDigit?_eq hvalue (digitValue_le hc), hvalue,
        appendDigits_cons hc, checked]
      by_cases hfits : Fits64 (signed negative (10 * n + digitValue c))
      · have hnext := ih (toInt_ofInt_of_fits64 hfits)
        rw [toInt_ofInt_of_fits64 hfits] at hnext
        rw [if_pos hfits, if_pos hfits]
        exact hnext
      · rw [if_neg hfits, if_neg hfits]
        rfl
    · rw [appendChecked, if_neg hc, appendDigits, if_neg hc]
      rfl

theorem readChecked_eq (text : String) : readChecked text = readSigned64 text := by
  unfold readChecked readSigned64
  by_cases hempty : text.isEmpty = true
  · rw [if_pos hempty, if_pos hempty]
  · rw [if_neg hempty, if_neg hempty]
    cases splitSign text.toList with
    | mk negative body =>
      cases body with
      | nil => rfl
      | cons c cs =>
        have hzero : (0 : Int64).toInt = signed negative 0 := (signed_zero negative).symm
        exact appendChecked_eq hzero (c :: cs)

/-! ## What can be read -/

theorem fits64_toInt (v : Int64) : Fits64 v.toInt := ⟨v.minValue_le_toInt, v.toInt_le⟩

theorem LeadingDigits.of_nil {negative : Bool} {run rest : List Char}
    (h : LeadingDigits [] negative run rest) : run = [] := by
  have hsplit := leadingSign_iff.mp h.sign
  obtain ⟨-, hbody⟩ := Prod.mk.inj hsplit
  exact (List.append_eq_nil_iff.mp hbody.symm).1

theorem not_overflows_nil (negative : Bool) : ¬ Overflows [] negative := by
  rintro ⟨run, rest, h, hout⟩
  obtain rfl := h.of_nil
  refine hout ?_
  rw [decimalValue, List.foldl_nil, signed_zero]
  decide

theorem readSigned64_eq_ok_iff {text : String} {v : Int64} :
    readSigned64 text = .ok v ↔ Writes text.toList v.toInt := by
  obtain ⟨negative, run, rest, hparts⟩ := exists_leadingDigits text.toList
  rw [readSigned64_eq_ite hparts, hparts.writes_iff]
  by_cases hempty : text = ""
  · subst hempty
    simp [hparts.of_nil]
  rw [if_neg hempty]
  by_cases hfits : Fits64 (signed negative (decimalValue run))
  · rw [if_neg (not_not_intro hfits)]
    by_cases hwhole : run ≠ [] ∧ rest = []
    · rw [if_pos hwhole, and_iff_right hwhole, Except.ok.injEq, ← Int64.toInt_inj,
        toInt_ofInt_of_fits64 hfits, eq_comm]
    · simp [hwhole]
  · rw [if_pos hfits]
    refine iff_of_false (by simp) fun h => hfits ?_
    rw [← h.2]
    exact fits64_toInt v

theorem readSigned64_eq_error_iff {text : String} {fault : IntegerFault} :
    readSigned64 text = .error fault ↔ Faulty text.toList fault := by
  obtain ⟨negative, run, rest, hparts⟩ := exists_leadingDigits text.toList
  rw [readSigned64_eq_ite hparts]
  by_cases hempty : text = ""
  · subst hempty
    cases fault <;> simp [Faulty, not_overflows_nil]
  rw [if_neg hempty]
  by_cases hfits : Fits64 (signed negative (decimalValue run))
  · rw [if_neg (not_not_intro hfits)]
    by_cases hwhole : run ≠ [] ∧ rest = []
    · rw [if_pos hwhole]
      cases fault <;> simp [Faulty, hparts.overflows_iff, hparts.writes_iff, hempty, hfits, hwhole]
    · rw [if_neg hwhole]
      cases fault <;> simp [Faulty, hparts.overflows_iff, hparts.writes_iff, hempty, hfits, hwhole]
  · rw [if_pos hfits]
    cases fault <;> cases negative <;>
      simp [Faulty, hparts.overflows_iff, hempty, hfits, IntegerFault.overflow]

end Number

/-! ## Integer leaves -/

open Number

/-- What becomes of an integer token, by its literal. -/
structure ReadsInteger (t : Token) : Prop where
  ok_iff : ∀ value : Int,
    (∃ leaf, Leaf.integerOfToken t = .ok leaf ∧ leaf.value.toInt = value) ↔
      Writes t.literal.toList value ∧ -9223372036854775808 ≤ value ∧ value ≤ 9223372036854775807
  token_eq : ∀ leaf, Leaf.integerOfToken t = .ok leaf → leaf.token = t
  error_iff : ∀ e, Leaf.integerOfToken t = .error e ↔
    ∃ fault, e = .invalidInteger t.literal fault ∧ Faulty t.literal.toList fault
  /-- A sign by itself, a second sign or any other character where the digits should begin. -/
  no_digit : ∀ negative rest, t.literal ≠ "" → LeadingDigits t.literal.toList negative [] rest →
    Leaf.integerOfToken t = .error (.invalidInteger t.literal .invalidDigit)
  /-- Nothing wraps: it is all done by operations on 64 bits that are checked one by one. -/
  stepwise : readSigned64 t.literal = readChecked t.literal

theorem integerOfToken_eq_error_iff {t : Token} (h : t.kind = .int) {e : LiteralError} :
    Leaf.integerOfToken t = .error e ↔
      ∃ fault, e = .invalidInteger t.literal fault ∧ readSigned64 t.literal = .error fault := by
  rw [Leaf.integerOfToken, h]
  cases readSigned64 t.literal with
  | ok value => simp
  | error fault => simp [eq_comm]

theorem readsInteger_of_int {t : Token} (h : t.kind = .int) : ReadsInteger t where
  ok_iff value := by
    constructor
    · rintro ⟨leaf, hleaf, rfl⟩
      obtain ⟨-, -, hread⟩ := Leaf.integerOfToken_eq_ok_iff.mp hleaf
      have hle := leaf.value.le_toInt
      have hlt := leaf.value.toInt_lt
      exact ⟨readSigned64_eq_ok_iff.mp hread, by omega, by omega⟩
    · rintro ⟨hwrites, hle, hge⟩
      have hvalue : (Int64.ofInt value).toInt = value :=
        Int64.toInt_ofInt_of_le (by omega) (by omega)
      rw [← hvalue] at hwrites
      have hread := readSigned64_eq_ok_iff.mpr hwrites
      exact ⟨⟨t, .ofInt value⟩, Leaf.integerOfToken_eq_ok_iff.mpr ⟨h, rfl, hread⟩, hvalue⟩
  token_eq leaf hleaf := (Leaf.integerOfToken_eq_ok_iff.mp hleaf).2.1
  error_iff e := by
    simp only [integerOfToken_eq_error_iff h, readSigned64_eq_error_iff]
  no_digit negative rest hne hparts := by
    refine (integerOfToken_eq_error_iff h).mpr ⟨_, rfl, readSigned64_eq_error_iff.mpr ?_⟩
    refine ⟨by simpa using hne, fun sign hout => ?_, fun value hwrites => ?_⟩
    · refine (hparts.overflows_iff.mp hout).2 ?_
      rw [decimalValue, List.foldl_nil, signed_zero]
      decide
    · exact (hparts.writes_iff.mp hwrites).1.1 rfl
  stepwise := (readChecked_eq t.literal).symm

/-- The least number is read, a number beyond the greatest is too large before any other fault in
its text, and a second sign is no digit. -/
theorem readsInteger_at_ends :
    (∃ leaf, Leaf.integerOfToken ⟨.int, "-09223372036854775808", .zero⟩ = .ok leaf ∧
        leaf.value.toInt = -9223372036854775808) ∧
      Leaf.integerOfToken ⟨.int, "+9223372036854775808x", .zero⟩ =
        .error (.invalidInteger "+9223372036854775808x" .tooLarge) ∧
      Leaf.integerOfToken ⟨.int, "--1", .zero⟩ =
        .error (.invalidInteger "--1" .invalidDigit) := by
  refine ⟨?_, ?_, ?_⟩
  · refine ((readsInteger_of_int rfl).ok_iff _).mpr ⟨?_, by decide, by decide⟩
    exact ⟨true, "09223372036854775808".toList, .minus _, by decide,
      List.all_eq_true.mp (by decide), by decide⟩
  · refine ((readsInteger_of_int rfl).error_iff _).mpr ⟨_, rfl, ?_⟩
    refine ⟨"9223372036854775808".toList, ['x'], ⟨.plus _, List.all_eq_true.mp (by decide), ?_⟩,
      by decide⟩
    rintro c ⟨⟩
    decide
  · refine (readsInteger_of_int rfl).no_digit true ['-', '1'] (by decide) ⟨.minus _, ?_, ?_⟩
    · intro c hc
      cases hc
    · rintro c ⟨⟩
      decide

end ScriptFrontend
