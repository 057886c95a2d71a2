import ScriptFrontend.Proofs.Tokenize.Spelling
import ScriptFrontend.Tree.Leaf

/-!
# Scanned leaves

A leaf fixes the kind of its token, and its value is worked out from the kind and the literal
(`identifierOfToken_eq_ok_iff` and its like). The token of a scanned leaf, strings apart, is a word
or a number without a fault (`Token.Legible`), so its literal spells it in front of whatever goes on
with neither (`Token.Legible.spells`).
-/

namespace ScriptFrontend

/-- The token is one of the tokens of some source. -/
def Token.Scanned (t : Token) : Prop := ∃ source, t ∈ tokenize source

namespace Leaf

/-- The leaf is made from a token of some source. -/
def Scanned {α : Type} (ofToken : Token → Except LiteralError (Leaf α)) (leaf : Leaf α) : Prop :=
  ∃ t : Token, t.Scanned ∧ ofToken t = .ok leaf

/-! ## What a leaf is made from -/

theorem identifierOfToken_eq_ok_iff {t : Token} {leaf : Leaf String} :
    identifierOfToken t = .ok leaf ↔ t.kind = .ident ∧ leaf = ⟨t, t.literal⟩ := by
  unfold identifierOfToken
  split
  next hkind => simp [hkind, eq_comm]
  next hkind => exact iff_of_false (fun h => nomatch h) fun h => hkind h.1

theorem integerOfToken_eq_ok_iff {t : Token} {leaf : Leaf Int64} :
    integerOfToken t = .ok leaf ↔
      t.kind = .int ∧ leaf.token = t ∧ Number.readSigned64 t.literal = .ok leaf.value := by
  obtain ⟨token, value⟩ := leaf
  unfold integerOfToken
  split
  next hkind =>
    split
    next v hread => simp [hkind, hread, eq_comm]
    next fault hread => simp [hread]
  next hkind => exact iff_of_false (fun h => nomatch h) fun h => hkind h.1

theorem floatOfToken_eq_ok_iff {t : Token} {leaf : Leaf Number.Binary64} :
    floatOfToken t = .ok leaf ↔
      t.kind = .float ∧ leaf.token = t ∧ Number.readBinary64 t.literal = .ok leaf.value := by
  obtain ⟨token, value⟩ := leaf
  unfold floatOfToken
  split
  next hkind =>
    split
    next v hread => simp [hkind, hread, eq_comm]
    next fault hread => simp [hread]
  next hkind => exact iff_of_false (fun h => nomatch h) fun h => hkind h.1

/-- The keyword that writes a truth value. -/
def keywordOfBool : Bool → Keyword
  | true => .trueKw
  | false => .falseKw

theorem booleanOfToken_eq_ok_iff {t : Token} {leaf : Leaf Bool} :
    booleanOfToken t = .ok leaf ↔
      t.kind = .keyword (keywordOfBool leaf.value) ∧ leaf.token = t := by
  obtain ⟨token, value⟩ := leaf
  unfold booleanOfToken
  split
  next hkind => cases value <;> simp [hkind, keywordOfBool, eq_comm]
  next hkind => cases value <;> simp [hkind, keywordOfBool, eq_comm]
  next htrue hfalse =>
    refine iff_of_false (fun h => nomatch h) fun h => ?_
    cases value with
    | true => exact htrue h.1
    | false => exact hfalse h.1

end Leaf

/-! ## Words and numbers -/

/-- The kinds of words and numbers. -/
def TokenKind.isRun : TokenKind → Bool
  | keyword _ | ident | int | float => true
  | _ => false

/-- The text goes on with no word and no number. -/
def Breaks (rest : List Char) : Prop :=
  ∀ c ∈ rest.head?, isWordChar c = false ∧ isNumberChar c = false

theorem Breaks.cons {c : Char} (hc : isWordChar c = false ∧ isNumberChar c = false)
    (rest : List Char) : Breaks (c :: rest) := by
  intro d hd
  cases hd
  exact hc

/-- A word or number is a run of one class, and no more is asked of what comes after it. -/
theorem TokenKind.Admits.exists_run {kind : TokenKind} {text : List Char} {next : Option Char}
    (h : kind.Admits text next) (hkind : kind.isRun = true) :
    ∃ p, (p = isWordChar ∨ p = isNumberChar) ∧ MaximalRun p text next ∧
      ∀ next', MaximalRun p text next' → kind.Admits text next' := by
  cases kind with
  | keyword k => exact ⟨_, .inl rfl, h.1, fun _ hrun => ⟨hrun, h.2⟩⟩
  | ident => exact ⟨_, .inl rfl, h.1, fun _ hrun => ⟨hrun, h.2⟩⟩
  | int => exact ⟨_, .inr rfl, h.1, fun _ hrun => ⟨hrun, h.2⟩⟩
  | float => exact ⟨_, .inr rfl, h.1, fun _ hrun => ⟨hrun, h.2⟩⟩
  | _ => cases hkind

theorem Lexeme.Fits.of_breaks {l : Lexeme} {after rest : List Char} (h : l.Fits after)
    (hkind : l.kind.isRun = true) (hrest : Breaks rest) : l.Fits rest := by
  obtain ⟨p, hp, hrun, hadmits⟩ := h.exists_run hkind
  refine hadmits _ ⟨hrun.ne_nil, hrun.inside, fun c hc => ?_⟩
  rcases hp with rfl | rfl
  · exact (hrest c hc).1
  · exact (hrest c hc).2

/-- Whether a token encodes a fault does not depend on its place. -/
theorem Token.sound_lexeme {t : Token} (h : Diagnostic.ofToken? t = none) : t.lexeme.Sound := by
  obtain ⟨kind, literal, place⟩ := t
  intro span
  rw [Token.lexeme, String.ofList_toList]
  cases kind with
  | float => cases hread : Number.readBinary64 literal <;> simp_all [Diagnostic.ofToken?]
  | string terminated => cases terminated <;> first | rfl | cases h
  | _ => first | rfl | cases h

/-- A word or number of some source that encodes no fault. -/
structure Token.Legible (t : Token) : Prop where
  scanned : t.Scanned
  run : t.kind.isRun = true
  faultless : Diagnostic.ofToken? t = none

namespace Token.Legible

variable {t : Token} {rest : List Char}

theorem exists_fits (h : t.Legible) : ∃ after, t.lexeme.Fits after := by
  obtain ⟨source, ht⟩ := h.scanned
  rcases mem_tokenize_cases ht with rfl | ⟨-, before, l, after, hstands⟩
  · cases h.run
  · refine ⟨after, ?_⟩
    rw [hstands.token_eq, lexeme_tokenAt]
    exact hstands.fits

theorem text_lexeme (h : t.Legible) : t.lexeme.text = t.literal.toList := by
  refine Lexeme.text_of_not_string (fun b hb => ?_) _
  have hrun := h.run
  rw [hb] at hrun
  cases hrun

theorem spells (h : t.Legible) (hrest : Breaks rest) :
    Spells t.literal.toList [t.lexeme] rest := by
  obtain ⟨after, hfits⟩ := h.exists_fits
  rw [← h.text_lexeme]
  exact .lexeme (hfits.of_breaks h.run hrest) (sound_lexeme h.faultless)

/-- The literal begins with a character of its class, which `=` is not in. -/
theorem head?_literal (h : t.Legible) : ∃ c ∈ t.literal.toList.head?, c ≠ '=' := by
  obtain ⟨after, hfits⟩ := h.exists_fits
  obtain ⟨p, hp, hrun, -⟩ := hfits.exists_run h.run
  rw [h.text_lexeme] at hrun
  obtain ⟨c, cs, hcs⟩ := List.exists_cons_of_ne_nil hrun.ne_nil
  have hc : p c = true := hrun.inside c (hcs ▸ List.mem_cons_self)
  refine ⟨c, by rw [hcs]; rfl, ?_⟩
  rintro rfl
  rcases hp with rfl | rfl <;> exact absurd hc (by decide)

end Token.Legible

theorem Token.Scanned.legible_keyword {t : Token} {k : Keyword} (h : t.Scanned)
    (hkind : t.kind = .keyword k) : t.Legible :=
  ⟨h, by rw [hkind]; rfl, by simp [Diagnostic.ofToken?, hkind]⟩

namespace Leaf.Scanned

theorem value_eq {leaf : Leaf String} (h : leaf.Scanned identifierOfToken) :
    leaf.value = leaf.token.literal := by
  obtain ⟨t, -, hleaf⟩ := h
  obtain ⟨-, rfl⟩ := identifierOfToken_eq_ok_iff.mp hleaf
  rfl

theorem legible_identifier {leaf : Leaf String} (h : leaf.Scanned identifierOfToken) :
    leaf.token.Legible := by
  obtain ⟨t, ht, hleaf⟩ := h
  obtain ⟨hkind, rfl⟩ := identifierOfToken_eq_ok_iff.mp hleaf
  exact ⟨ht, by rw [hkind]; rfl, by simp [Diagnostic.ofToken?, hkind]⟩

theorem legible_integer {leaf : Leaf Int64} (h : leaf.Scanned integerOfToken) :
    leaf.token.Legible := by
  obtain ⟨t, ht, hleaf⟩ := h
  obtain ⟨hkind, rfl, -⟩ := integerOfToken_eq_ok_iff.mp hleaf
  exact ⟨ht, by rw [hkind]; rfl, by simp [Diagnostic.ofToken?, hkind]⟩

theorem legible_float {leaf : Leaf Number.Binary64} (h : leaf.Scanned floatOfToken) :
    leaf.token.Legible := by
  obtain ⟨t, ht, hleaf⟩ := h
  obtain ⟨hkind, rfl, hread⟩ := floatOfToken_eq_ok_iff.mp hleaf
  exact ⟨ht, by rw [hkind]; rfl, by simp [Diagnostic.ofToken?, hkind, hread]⟩

theorem legible_boolean {leaf : Leaf Bool} (h : leaf.Scanned booleanOfToken) :
    leaf.token.Legible := by
  obtain ⟨t, ht, hleaf⟩ := h
  obtain ⟨hkind, rfl⟩ := booleanOfToken_eq_ok_iff.mp hleaf
  exact ht.legible_keyword hkind

end Leaf.Scanned

end ScriptFrontend
