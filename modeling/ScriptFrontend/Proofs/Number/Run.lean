import ScriptFrontend.Number.Binary64
import ScriptFrontend.Proofs.Lexeme.Scan

/-!
# Runs of digits and dots as numbers

Of what the grammar of floating-point numbers allows, a run of digits and dots can have neither a
sign nor an exponent nor a word. So it is a number exactly when it has a digit and at most one
dot (`readBinary64_eq_error_iff`).
-/

namespace ScriptFrontend

/-- A run of digits and dots that is no number: two dots, or no digit. -/
def Malformed (run : List Char) : Prop :=
  2 ≤ run.count '.' ∨ ∀ c ∈ run, c.isDigit = false

theorem isNumberChar_iff {c : Char} : isNumberChar c = true ↔ c.isDigit = true ∨ c = '.' := by
  simp [isNumberChar]

theorem toLower_of_isNumberChar {c : Char} (h : isNumberChar c = true) : c.toLower = c := by
  rcases isNumberChar_iff.mp h with h | rfl
  · have h9 : '9'.val.toNat = 57 := rfl
    have hA : 'A'.val.toNat = 65 := rfl
    simp only [Char.isDigit, Bool.and_eq_true, decide_eq_true_eq, UInt32.le_iff_toNat_le] at h
    unfold Char.toLower
    rw [dif_neg]
    simp only [ge_iff_le, UInt32.le_iff_toNat_le]
    omega
  · rfl

namespace Number.Numeral

/-- Digits, and then nothing or a dot with more of the run. -/
theorem exists_digits_append {run : List Char} (h : ∀ c ∈ run, isNumberChar c = true) :
    (∀ c ∈ run.takeWhile Char.isDigit, c.isDigit = true) ∧
      (run.dropWhile Char.isDigit = [] ∨
        ∃ tail, run.dropWhile Char.isDigit = '.' :: tail ∧ ∀ c ∈ tail, isNumberChar c = true) := by
  refine ⟨fun c hc => List.all_eq_true.mp List.all_takeWhile c hc, ?_⟩
  have hsub : ∀ c ∈ run.dropWhile Char.isDigit, isNumberChar c = true := fun c hc =>
    h c (List.dropWhile_subset _ hc)
  have hstop := stops_dropWhile Char.isDigit run
  cases hdrop : run.dropWhile Char.isDigit with
  | nil => exact .inl rfl
  | cons d tail =>
    rw [hdrop] at hsub hstop
    have hd : d = '.' := by
      rcases isNumberChar_iff.mp (hsub d List.mem_cons_self) with hd | hd
      · rw [hstop d rfl] at hd
        cases hd
      · exact hd
    subst hd
    exact .inr ⟨tail, rfl, fun c hc => hsub c (List.mem_cons_of_mem _ hc)⟩

theorem count_dot_of_digits {digits : List Char} (h : ∀ c ∈ digits, c.isDigit = true) :
    digits.count '.' = 0 := by
  rw [List.count_eq_zero]
  intro hmem
  exact absurd (h _ hmem) (by decide)

theorem not_malformed_of_digit {run : List Char} {c : Char} (hc : c ∈ run)
    (hdigit : c.isDigit = true) (hcount : run.count '.' ≤ 1) : ¬ Malformed run := by
  rintro (htwo | hnone)
  · omega
  · rw [hnone c hc] at hdigit
    cases hdigit

theorem readDecimal?_eq_none_iff {run : List Char} (h : ∀ c ∈ run, isNumberChar c = true) :
    readDecimal? false run = none ↔ Malformed run := by
  obtain ⟨hwhole, htail⟩ := exists_digits_append h
  have hrun := List.takeWhile_append_dropWhile (p := Char.isDigit) (l := run)
  unfold readDecimal?
  generalize run.takeWhile Char.isDigit = whole at *
  generalize run.dropWhile Char.isDigit = rest at *
  subst hrun
  rcases htail with rfl | ⟨tail, rfl, hnumber⟩
  · -- no dot at all
    cases whole with
    | nil => simp [splitFraction, Malformed]
    | cons d digits =>
      have hcount := count_dot_of_digits hwhole
      have hgood : ¬ Malformed (d :: digits ++ []) := by
        refine not_malformed_of_digit (c := d) (by simp) (hwhole d List.mem_cons_self) ?_
        rw [List.append_nil, hcount]
        omega
      rw [iff_false_right hgood]
      simp [splitFraction, readExponent?]
  · obtain ⟨hfraction, hmore⟩ := exists_digits_append hnumber
    have htail := List.takeWhile_append_dropWhile (p := Char.isDigit) (l := tail)
    simp only [splitFraction]
    generalize tail.takeWhile Char.isDigit = fraction at *
    generalize tail.dropWhile Char.isDigit = more at *
    subst htail
    have hcount : (whole ++ '.' :: (fraction ++ more)).count '.' = 1 + more.count '.' := by
      rw [List.count_append, count_dot_of_digits hwhole, List.count_cons_self, List.count_append,
        count_dot_of_digits hfraction]
      omega
    rcases hmore with rfl | ⟨others, rfl, -⟩
    · -- one dot: a digit on either side of it decides
      by_cases hempty : whole = [] ∧ fraction = []
      · obtain ⟨rfl, rfl⟩ := hempty
        simp [Malformed]
      · have hdigit : ∃ c ∈ whole ++ fraction, c.isDigit = true := by
          obtain ⟨c, hc⟩ := List.exists_mem_of_ne_nil (whole ++ fraction) (by simpa using hempty)
          refine ⟨c, hc, ?_⟩
          rcases List.mem_append.mp hc with hc | hc
          · exact hwhole c hc
          · exact hfraction c hc
        obtain ⟨c, hc, hcdigit⟩ := hdigit
        have hgood : ¬ Malformed (whole ++ '.' :: (fraction ++ [])) := by
          refine not_malformed_of_digit (c := c) ?_ hcdigit (by rw [hcount]; simp)
          simp only [List.append_nil, List.mem_append, List.mem_cons] at hc ⊢
          rcases hc with hc | hc
          · exact .inl hc
          · exact .inr (.inr hc)
        rw [iff_false_right hgood]
        simpa [readExponent?] using hempty
    · -- a second dot ends the number where only an exponent may follow
      have hbad : Malformed (whole ++ '.' :: (fraction ++ '.' :: others)) := by
        left
        rw [hcount, List.count_cons_self]
        omega
      rw [iff_true_right hbad]
      simp [readExponent?]

theorem readWord?_eq_none {run : List Char} (h : ∀ c ∈ run, isNumberChar c = true) :
    readWord? false run = none := by
  have hmap : run.map Char.toLower = run := by
    rw [List.map_congr_left fun c hc => toLower_of_isNumberChar (h c hc)]
    simp
  have hi : ∀ cs, run ≠ 'i' :: cs := by
    rintro cs rfl
    exact absurd (h 'i' List.mem_cons_self) (by decide)
  have hn : ∀ cs, run ≠ 'n' :: cs := by
    rintro cs rfl
    exact absurd (h 'n' List.mem_cons_self) (by decide)
  unfold readWord?
  simp [hmap, hi, hn]

theorem splitSign_run {run : List Char} (h : ∀ c ∈ run, isNumberChar c = true) :
    splitSign run = (false, run) := by
  unfold splitSign
  split
  · exact absurd (h '-' List.mem_cons_self) (by decide)
  · exact absurd (h '+' List.mem_cons_self) (by decide)
  · rfl

theorem ofText?_eq_none_iff {run : List Char} (h : ∀ c ∈ run, isNumberChar c = true) :
    ofText? run = none ↔ Malformed run := by
  unfold ofText?
  rw [splitSign_run h]
  simp [readWord?_eq_none h, readDecimal?_eq_none_iff h]

end Number.Numeral

/-- Only a run with a dot can be malformed. -/
theorem Malformed.ofNumber_eq {run : List Char} {next : Option Char}
    (h : Malformed run) (hrun : MaximalRun isNumberChar run next) :
    TokenKind.ofNumber run = .float := by
  have hdot : '.' ∈ run := by
    rcases h with htwo | hnone
    · exact List.count_pos_iff.mp (by omega)
    · obtain ⟨c, cs, rfl⟩ := List.exists_cons_of_ne_nil hrun.ne_nil
      have hc := hrun.inside c List.mem_cons_self
      rw [isNumberChar_iff, hnone c List.mem_cons_self] at hc
      simp only [Bool.false_eq_true, false_or] at hc
      exact hc ▸ List.mem_cons_self
  simp [TokenKind.ofNumber, hdot]

theorem readBinary64_eq_error_iff {run : List Char} (h : ∀ c ∈ run, isNumberChar c = true) :
    (∃ fault, Number.readBinary64 (String.ofList run) = .error fault) ↔ Malformed run := by
  rw [← Number.Numeral.ofText?_eq_none_iff h]
  unfold Number.readBinary64
  rw [String.toList_ofList]
  split
  next hempty =>
    obtain rfl : run = [] := by simpa using hempty
    exact iff_of_true ⟨_, rfl⟩ rfl
  next =>
    cases hread : Number.Numeral.ofText? run with
    | none => exact iff_of_true ⟨_, rfl⟩ rfl
    | some numeral => simp

end ScriptFrontend
