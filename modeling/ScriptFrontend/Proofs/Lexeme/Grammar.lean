import ScriptFrontend.Token.Lexeme

/-!
# The grammar of lexemes

`TokenKind.Admits` says what text a token of each kind may have, and which character may follow
it. `Lexeme.Fits` asks it of a lexeme before the rest of a text. Below are the classes of
characters that the grammar speaks of, and the vocabulary's look-ups in its terms.
-/

namespace ScriptFrontend

/-- A run of characters of one class that the next character does not go on with. -/
structure MaximalRun (p : Char → Bool) (text : List Char) (next : Option Char) : Prop where
  ne_nil : text ≠ []
  inside : ∀ c ∈ text, p c = true
  stops : ∀ c ∈ next, p c = false

/-- The canonical spelling or an alias, letter by letter. -/
def Keyword.Spells (k : Keyword) (text : List Char) : Prop :=
  String.ofList text = k.spelling ∨ String.ofList text ∈ k.aliases

/-- A token of the kind may cover the text before the character `next`. -/
def TokenKind.Admits (text : List Char) (next : Option Char) : TokenKind → Prop
  | keyword k => MaximalRun isWordChar text next ∧ k.Spells text
  | ident => MaximalRun isWordChar text next ∧ ∀ k : Keyword, ¬ k.Spells text
  | int => MaximalRun isNumberChar text next ∧ '.' ∉ text
  | float => MaximalRun isNumberChar text next ∧ '.' ∈ text
  | operator o => text = o.spelling.toList ∧ (o = .assign ∨ o = .bang → next ≠ some '=')
  | punctuation p => text = p.spelling.toList
  | string true => ∃ body, '\"' ∉ body ∧ text = '\"' :: body ++ ['\"']
  | string false => ∃ body, '\"' ∉ body ∧ text = '\"' :: body ∧ next = none
  | illegal => ∃ c, text = [c] ∧ isBlank c = false ∧ isWordChar c = false ∧
      isNumberChar c = false ∧ c ≠ '\"' ∧ (∀ o : Operator, o.spelling.toList ≠ [c]) ∧
      ∀ p : Punctuation, p.spelling.toList ≠ [c]
  | eof => False

/-- The lexeme is one the grammar admits before the rest of the text. -/
def Lexeme.Fits (l : Lexeme) (rest : List Char) : Prop := l.kind.Admits l.text rest.head?

/-! ## Classes of characters -/

theorem isDigit_of_isWordChar {c : Char} (h : isWordChar c = true) : c.isDigit = false := by
  have hword : (decide (c.val ≥ 'A'.val ∧ c.val ≤ 'Z'.val) ||
      decide (c.val ≥ 'a'.val) && decide (c.val ≤ 'z'.val) || c == '_') = true := h
  simp only [Bool.or_eq_true, Bool.and_eq_true, decide_eq_true_eq, beq_iff_eq, ge_iff_le,
    UInt32.le_iff_toNat_le] at hword
  rcases hword with hletter | rfl
  · have h9 : '9'.val.toNat = 57 := rfl
    have hA : 'A'.val.toNat = 65 := rfl
    have ha : 'a'.val.toNat = 97 := rfl
    refine Bool.eq_false_iff.mpr fun hd => ?_
    simp only [Char.isDigit, Bool.and_eq_true, decide_eq_true_eq, UInt32.le_iff_toNat_le] at hd
    omega
  · rfl

theorem isNumberChar_of_isWordChar {c : Char} (h : isWordChar c = true) :
    isNumberChar c = false := by
  simp only [isNumberChar, isDigit_of_isWordChar h, Bool.false_or, beq_eq_false_iff_ne]
  rintro rfl
  exact absurd h (by decide)

theorem isBlank_iff {c : Char} : isBlank c = true ↔ c = ' ' ∨ c = '\t' ∨ c = '\n' ∨ c = '\r' := by
  simp only [isBlank, Bool.or_eq_true, beq_iff_eq, or_assoc]

theorem isBlank_of_isNumberChar {c : Char} (h : isNumberChar c = true) : isBlank c = false := by
  refine Bool.eq_false_iff.mpr fun hb => ?_
  rcases isBlank_iff.mp hb with rfl | rfl | rfl | rfl <;> exact absurd h (by decide)

theorem isBlank_of_isWordChar {c : Char} (h : isWordChar c = true) : isBlank c = false := by
  refine Bool.eq_false_iff.mpr fun hb => ?_
  rcases isBlank_iff.mp hb with rfl | rfl | rfl | rfl <;> exact absurd h (by decide)

namespace TokenKind

theorem ofSymbol?_of_isNumberChar {c : Char} (h : isNumberChar c = true) :
    ofSymbol? c = none := by
  unfold ofSymbol?
  split <;> first | rfl | exact absurd h (by decide)

theorem ofSymbol?_of_isWordChar {c : Char} (h : isWordChar c = true) : ofSymbol? c = none := by
  unfold ofSymbol?
  split <;> first | rfl | exact absurd h (by decide)

theorem isBlank_of_ofSymbol? {c : Char} {kind : TokenKind} (h : ofSymbol? c = some kind) :
    isBlank c = false := by
  unfold ofSymbol? at h
  split at h <;> cases h <;> rfl

/-- The symbols of one character are the spellings of one character. -/
theorem ofSymbol?_eq_some_iff {c : Char} {kind : TokenKind} :
    ofSymbol? c = some kind ↔
      (∃ o, kind = .operator o ∧ o.spelling.toList = [c]) ∨
        ∃ p, kind = .punctuation p ∧ p.spelling.toList = [c] := by
  constructor
  · intro h
    unfold ofSymbol? at h
    split at h <;> cases h <;>
      first | exact .inl ⟨_, rfl, rfl⟩ | exact .inr ⟨_, rfl, rfl⟩
  · rintro (⟨o, rfl, h⟩ | ⟨p, rfl, h⟩)
    · cases o <;> simp [Operator.spelling] at h <;> subst h <;> rfl
    · cases p <;> simp [Punctuation.spelling] at h <;> subst h <;> rfl

end TokenKind

namespace Operator

theorem beforeEquals?_eq_some_iff {c : Char} {o : Operator} :
    beforeEquals? c = some o ↔ o.spelling.toList = [c, '='] := by
  constructor
  · intro h
    unfold beforeEquals? at h
    split at h <;> cases h <;> rfl
  · intro h
    cases o <;> simp [spelling] at h <;> subst h <;> rfl

/-- An operator that a following `=` turns into another one. -/
theorem isSome_beforeEquals?_iff {c : Char} {o : Operator} (h : o.spelling.toList = [c]) :
    (beforeEquals? c).isSome ↔ o = .assign ∨ o = .bang := by
  cases o <;> simp [spelling] at h <;> subst h <;> simp [beforeEquals?]

theorem spelling_cases (o : Operator) :
    (∃ c, o.spelling.toList = [c]) ∨ ∃ c, o.spelling.toList = [c, '='] := by
  cases o <;> first | exact .inl ⟨_, rfl⟩ | exact .inr ⟨_, rfl⟩

end Operator

theorem Punctuation.exists_spelling (p : Punctuation) : ∃ c, p.spelling.toList = [c] := by
  cases p <;> exact ⟨_, rfl⟩

/-- Each spelling belongs to one keyword, and the look-up finds it. -/
theorem Keyword.ofSpelling?_eq_some_iff {s : String} {k : Keyword} :
    Keyword.ofSpelling? s = some k ↔ s = k.spelling ∨ s ∈ k.aliases := by
  constructor
  · intro h
    simp only [ofSpelling?, Option.orElse_eq_orElse, Option.orElse_eq_or,
      Option.or_eq_some_iff] at h
    rcases h with h | ⟨-, h⟩
    · have hk := List.find?_some h
      exact .inl (beq_iff_eq.mp hk).symm
    · have hk := List.find?_some h
      exact .inr (List.contains_iff_mem.mp hk)
  · rintro (rfl | h)
    · cases k <;> decide
    · cases k <;> simp only [aliases, List.mem_singleton, List.not_mem_nil] at h
      subst h
      decide

end ScriptFrontend
