import ScriptFrontend.Proofs.Diagnostic.FaultList
import ScriptFrontend.Proofs.Number.Integer
import ScriptFrontend.Proofs.Tree.Leaves
import ScriptFrontend.Tree.Basic

/-!
# Leaves of accepted sources

`Expression.ofToken` tries one of the five ways to get a leaf from a token. The kind of the token
decides which of them is the right one (`TokenKind.leafSort?`); the others name the kind in their
error. `Converts t` says what the right one gives. It holds of each token of a source that `lex`
accepts (`converts_of_lex`): the check of the source has judged its floats by the same reader, and
its integers are runs of digits, so they can fail in no other way than by being too large.
-/

namespace ScriptFrontend

open Text Cursor

/-- The leaf of the given sort that the token makes. -/
def Expression.ofToken (sort : LeafSort) (t : Token) : Except LiteralError Expression :=
  match sort with
  | .identifier => (Leaf.identifierOfToken t).map .identifier
  | .integer => (Leaf.integerOfToken t).map .integer
  | .float => (Leaf.floatOfToken t).map .float
  | .string => (Leaf.stringOfToken t).map .string
  | .boolean => (Leaf.booleanOfToken t).map .boolean

/-- The sort of leaf that tokens of the kind are for. -/
def TokenKind.leafSort? : TokenKind → Option LeafSort
  | ident => some .identifier
  | int => some .integer
  | float => some .float
  | string _ => some .string
  | keyword .trueKw | keyword .falseKw => some .boolean
  | _ => none

open Expression (ofToken)

structure Converts (t : Token) : Prop where
  identifier : t.kind = .ident → ofToken .identifier t = .ok (.identifier ⟨t, t.literal⟩)
  string : ∀ terminated, t.kind = .string terminated →
    ofToken .string t = .ok (.string ⟨t, t.literal⟩)
  boolean : ∀ b, t.kind = .keyword (Leaf.keywordOfBool b) →
    ofToken .boolean t = .ok (.boolean ⟨t, b⟩)
  float : t.kind = .float →
    ∃ x, Number.readBinary64 t.literal = .ok x ∧ ofToken .float t = .ok (.float ⟨t, x⟩)
  /-- Apart from integers the conversion for the kind succeeds, and only that one. -/
  succeeds_iff : t.kind ≠ .int →
    ∀ sort, (∃ e, ofToken sort t = .ok e) ↔ t.kind.leafSort? = some sort
  digits : t.kind = .int → t.literal ≠ "" ∧ ∀ c ∈ t.literal.toList, c.isDigit = true
  integer : t.kind = .int → Number.decimalValue t.literal.toList ≤ 2 ^ 63 - 1 →
    ∃ v : Int64, v.toInt = Number.decimalValue t.literal.toList ∧
      ofToken .integer t = .ok (.integer ⟨t, v⟩)
  tooLarge : t.kind = .int → 2 ^ 63 - 1 < Number.decimalValue t.literal.toList →
    ofToken .integer t = .error (.invalidInteger t.literal .tooLarge)
  unexpected : ∀ sort, t.kind.leafSort? ≠ some sort →
    ofToken sort t = .error (.unexpectedToken sort t.kind)
  isLiteral_iff : t.kind.isLiteral = true ↔
    ∃ sort, sort ≠ .identifier ∧ ofToken sort t ≠ .error (.unexpectedToken sort t.kind)

/-! ## The sort of a token -/

theorem TokenKind.isLiteral_iff_leafSort? {kind : TokenKind} :
    kind.isLiteral = true ↔ ∃ sort, sort ≠ .identifier ∧ kind.leafSort? = some sort := by
  have hall : ∀ kind ∈ TokenKind.all, kind.isLiteral =
      kind.leafSort?.any fun sort => sort != .identifier := by decide
  rw [hall kind kind.mem_all, Option.any_eq_true]
  simp [and_comm]

theorem ofToken_of_leafSort?_ne {t : Token} {sort : LeafSort}
    (h : t.kind.leafSort? ≠ some sort) :
    ofToken sort t = .error (.unexpectedToken sort t.kind) := by
  cases sort <;>
    simp only [ofToken, Leaf.identifierOfToken, Leaf.integerOfToken, Leaf.floatOfToken,
      Leaf.stringOfToken, Leaf.booleanOfToken] <;>
    split <;> simp_all [TokenKind.leafSort?, Except.map]

/-- The conversion for the kind may fail, but not for the kind. -/
theorem ofToken_ne_of_leafSort? {t : Token} {sort : LeafSort} (h : t.kind.leafSort? = some sort)
    (found : TokenKind) : ofToken sort t ≠ .error (.unexpectedToken sort found) := by
  unfold TokenKind.leafSort? at h
  split at h <;> cases h
  next hkind => simp [ofToken, Leaf.identifierOfToken, hkind, Except.map]
  next hkind =>
    cases hread : Number.readSigned64 t.literal <;>
      simp [ofToken, Leaf.integerOfToken, hkind, hread, Except.map]
  next hkind =>
    cases hread : Number.readBinary64 t.literal <;>
      simp [ofToken, Leaf.floatOfToken, hkind, hread, Except.map]
  next hkind => simp [ofToken, Leaf.stringOfToken, hkind, Except.map]
  next hkind => simp [ofToken, Leaf.booleanOfToken, hkind, Except.map]
  next hkind => simp [ofToken, Leaf.booleanOfToken, hkind, Except.map]

/-! ## The conversion for the kind -/

section

variable {t : Token}

theorem ofToken_identifier (h : t.kind = .ident) :
    ofToken .identifier t = .ok (.identifier ⟨t, t.literal⟩) := by
  simp [ofToken, Leaf.identifierOfToken, h, Except.map]

theorem ofToken_string {terminated : Bool} (h : t.kind = .string terminated) :
    ofToken .string t = .ok (.string ⟨t, t.literal⟩) := by
  simp [ofToken, Leaf.stringOfToken, h, Except.map]

theorem ofToken_boolean {b : Bool} (h : t.kind = .keyword (Leaf.keywordOfBool b)) :
    ofToken .boolean t = .ok (.boolean ⟨t, b⟩) := by
  have hleaf : Leaf.booleanOfToken t = .ok ⟨t, b⟩ :=
    Leaf.booleanOfToken_eq_ok_iff.mpr ⟨h, rfl⟩
  simp [ofToken, hleaf, Except.map]

/-- A float that encodes no fault is read. -/
theorem ofToken_float (h : t.kind = .float) (hsound : Diagnostic.ofToken? t = none) :
    ∃ x, Number.readBinary64 t.literal = .ok x ∧ ofToken .float t = .ok (.float ⟨t, x⟩) := by
  cases hread : Number.readBinary64 t.literal with
  | ok x => exact ⟨x, rfl, by simp [ofToken, Leaf.floatOfToken, h, hread, Except.map]⟩
  | error fault => simp [Diagnostic.ofToken?, h, hread] at hsound

theorem ofToken_integer (h : t.kind = .int) (hne : t.literal ≠ "")
    (hdigits : ∀ c ∈ t.literal.toList, c.isDigit = true) :
    ofToken .integer t =
      if Number.decimalValue t.literal.toList ≤ 2 ^ 63 - 1 then
        .ok (.integer ⟨t, .ofInt (Number.decimalValue t.literal.toList)⟩)
      else .error (.invalidInteger t.literal .tooLarge) := by
  have hread := Number.readSigned64_of_digits (by simpa using hne) hdigits
  rw [String.ofList_toList] at hread
  by_cases hle : Number.decimalValue t.literal.toList ≤ 2 ^ 63 - 1
  · rw [if_pos hle] at hread ⊢
    simp [ofToken, Leaf.integerOfToken, h, hread, Except.map]
  · rw [if_neg hle] at hread ⊢
    simp [ofToken, Leaf.integerOfToken, h, hread, Except.map]

theorem exists_ofToken_iff (hkind : t.kind ≠ .int) (hsound : Diagnostic.ofToken? t = none)
    (sort : LeafSort) : (∃ e, ofToken sort t = .ok e) ↔ t.kind.leafSort? = some sort := by
  constructor
  · rintro ⟨e, he⟩
    by_contra hne
    rw [ofToken_of_leafSort?_ne hne] at he
    cases he
  · intro hsort
    unfold TokenKind.leafSort? at hsort
    split at hsort <;> cases hsort
    next h => exact ⟨_, ofToken_identifier h⟩
    next h => exact absurd h hkind
    next h =>
      obtain ⟨x, -, hx⟩ := ofToken_float h hsound
      exact ⟨_, hx⟩
    next h => exact ⟨_, ofToken_string h⟩
    next h => exact ⟨_, ofToken_boolean (b := true) h⟩
    next h => exact ⟨_, ofToken_boolean (b := false) h⟩

end

/-! ## Accepted tokens -/

theorem lex_eq_ok_iff {source : String} {tokens : List Token} :
    lex source = .ok tokens ↔
      tokens = tokenize source ∧ ∀ t ∈ tokens, Diagnostic.ofToken? t = none := by
  rw [lex_eq]
  split
  next hnone =>
    have hcheck := List.filterMap_eq_nil_iff.mp hnone
    constructor
    · intro h
      cases h
      exact ⟨rfl, hcheck⟩
    · rintro ⟨rfl, -⟩
      rfl
  next hsome =>
    refine iff_of_false (by simp) ?_
    rintro ⟨rfl, hcheck⟩
    exact hsome (List.filterMap_eq_nil_iff.mpr hcheck)

/-- Without a dot a run of digits and dots has digits only. -/
theorem digits_of_mem_tokenize {source : String} {t : Token} (ht : t ∈ tokenize source)
    (hkind : t.kind = .int) : t.literal ≠ "" ∧ ∀ c ∈ t.literal.toList, c.isDigit = true := by
  rcases mem_tokenize_cases ht with rfl | ⟨-, before, l, after, hstands⟩
  · cases hkind
  have hadmits := hstands.fits
  rw [Lexeme.Fits, ← hstands.kind_eq, hkind] at hadmits
  obtain ⟨hrun, hdot⟩ := hadmits
  rw [hstands.literal_eq (by simp [hkind])]
  refine ⟨by simpa using hrun.ne_nil, fun c hc => ?_⟩
  rw [String.toList_ofList] at hc
  rcases isNumberChar_iff.mp (hrun.inside c hc) with hdigit | rfl
  · exact hdigit
  · exact absurd hc hdot

theorem converts_of_lex {source : String} {tokens : List Token} (h : lex source = .ok tokens)
    {t : Token} (ht : t ∈ tokens) : Converts t := by
  obtain ⟨rfl, hfaultless⟩ := lex_eq_ok_iff.mp h
  have hsound := hfaultless t ht
  have hdigits := fun hkind => digits_of_mem_tokenize ht hkind
  exact {
    identifier := ofToken_identifier
    string := fun _ => ofToken_string
    boolean := fun _ => ofToken_boolean
    float := fun hkind => ofToken_float hkind hsound
    succeeds_iff := fun hkind => exists_ofToken_iff hkind hsound
    digits := hdigits
    integer := fun hkind hle => by
      obtain ⟨hne, hall⟩ := hdigits hkind
      refine ⟨_, Int64.toInt_ofInt_of_le (by omega) (by omega), ?_⟩
      rw [ofToken_integer hkind hne hall, if_pos hle]
    tooLarge := fun hkind hlt => by
      obtain ⟨hne, hall⟩ := hdigits hkind
      rw [ofToken_integer hkind hne hall, if_neg (by omega)]
    unexpected := fun _ => ofToken_of_leafSort?_ne
    isLiteral_iff := by
      rw [TokenKind.isLiteral_iff_leafSort?]
      refine exists_congr fun sort => and_congr_right fun _ => ?_
      constructor
      · exact fun hsort => ofToken_ne_of_leafSort? hsort t.kind
      · intro hne
        by_contra hsort
        exact hne (ofToken_of_leafSort?_ne hsort) }

/-- The first whole number that has no place among the integers. -/
theorem converts_two_pow_63 :
    lex "9223372036854775808" =
        .ok [⟨.int, "9223372036854775808", ⟨0, 19⟩⟩, .eof 19] ∧
      ofToken .integer ⟨.int, "9223372036854775808", ⟨0, 19⟩⟩ =
        .error (.invalidInteger "9223372036854775808" .tooLarge) := by
  have hlex : lex "9223372036854775808" =
      .ok [⟨.int, "9223372036854775808", ⟨0, 19⟩⟩, .eof 19] := by decide +kernel
  exact ⟨hlex, (converts_of_lex hlex List.mem_cons_self).tooLarge rfl (by decide)⟩

end ScriptFrontend
