import ScriptFrontend.Proofs.Tokenize.Spelling

/-!
# The scanner and the vocabulary agree

The vocabulary finds a spelling by search; the scanner goes by characters and never searches for a
symbol. `TokenKind.SpelledBy` is what the vocabulary says of a text, and `IsToken` what the scanner
makes of it. The two hold of the same texts for the same kinds (`isToken_iff_spelledBy`), and the
scanner gives a text one kind, so no text has two places in the vocabulary.
-/

namespace ScriptFrontend

open Text Cursor

/-- The text is one token of the kind, with all of the text as its literal, and then the end. -/
def IsToken (kind : TokenKind) (s : String) : Prop :=
  (tokenize s).map Token.lexeme = [⟨kind, s.toList⟩, .eof]

namespace TokenKind

/-- The vocabulary has the text as a spelling of the kind. -/
def SpelledBy (s : String) : TokenKind → Prop
  | keyword k => s = k.spelling ∨ s ∈ k.aliases
  | operator o => s = o.spelling
  | punctuation p => s = p.spelling
  | _ => False

/-- The kinds of words and symbols that the vocabulary lists. -/
def isListed : TokenKind → Bool
  | keyword _ | operator _ | punctuation _ => true
  | _ => false

end TokenKind

/-! ## The look-ups -/

theorem Operator.ofSpelling?_eq_some_iff {s : String} {o : Operator} :
    ofSpelling? s = some o ↔ s = o.spelling := by
  constructor
  · intro h
    have hfound := List.find?_some h
    exact (beq_iff_eq.mp hfound).symm
  · rintro rfl
    cases o <;> decide

theorem Punctuation.ofSpelling?_eq_some_iff {s : String} {p : Punctuation} :
    ofSpelling? s = some p ↔ s = p.spelling := by
  constructor
  · intro h
    have hfound := List.find?_some h
    exact (beq_iff_eq.mp hfound).symm
  · rintro rfl
    cases p <;> decide

/-! ## The scanner -/

/-- A text is one token exactly if the grammar admits it with nothing after it. -/
theorem isToken_iff_admits {kind : TokenKind} (hkind : ∀ b, kind ≠ .string b) {s : String} :
    IsToken kind s ↔ kind.Admits s.toList none := by
  have htext : Lexeme.text ⟨kind, s.toList⟩ = s.toList := Lexeme.text_of_not_string hkind _
  constructor
  · intro h
    obtain ⟨t, ts, htokens, ht, hts⟩ := List.map_eq_cons_iff.mp h
    obtain ⟨u, us, rfl, -, hus⟩ := List.map_eq_cons_iff.mp hts
    obtain rfl : us = [] := List.map_eq_nil_iff.mp hus
    have hmem : t ∈ (tokenize s).dropLast := by simp [htokens]
    obtain ⟨before, l, after, hstands⟩ := exists_stands_of_mem_dropLast hmem
    obtain rfl : l = ⟨kind, s.toList⟩ := by
      rw [← ht, hstands.token_eq, lexeme_tokenAt]
    -- the token has the length of the source, which leaves nothing around it
    have hlength := congrArg List.length hstands.source_eq
    rw [htext, List.length_append, List.length_append] at hlength
    obtain rfl : after = [] := List.eq_nil_of_length_eq_zero (by omega)
    have hfits := hstands.fits
    rwa [Lexeme.Fits, htext] at hfits
  · intro h
    have hfits : Lexeme.Fits ⟨kind, s.toList⟩ [] := by rwa [Lexeme.Fits, htext]
    have hlexemes := lexemes_of_fits hfits
    rwa [htext, List.append_nil, lexemes_nil] at hlexemes

/-- Every spelling of a keyword is a word. -/
theorem Keyword.Spells.maximalRun {k : Keyword} {text : List Char} (h : k.Spells text) :
    MaximalRun isWordChar text none := by
  have hrun : text ≠ [] ∧ text.all isWordChar = true := by
    rw [← String.toList_ofList (l := text)]
    rcases h with h | h
    · rw [h]
      cases k <;> decide
    · cases k <;> simp only [aliases, List.mem_singleton, List.not_mem_nil] at h
      rw [h]
      decide
  exact ⟨hrun.1, List.all_eq_true.mp hrun.2, by simp⟩

theorem admits_iff_spelledBy {kind : TokenKind} (hkind : kind.isListed = true) {s : String} :
    kind.Admits s.toList none ↔ kind.SpelledBy s := by
  cases kind with
  | keyword k =>
    have hspells : k.Spells s.toList ↔ s = k.spelling ∨ s ∈ k.aliases := by
      rw [Keyword.Spells, String.ofList_toList]
    exact ⟨fun h => hspells.mp h.2, fun h => ⟨(hspells.mpr h).maximalRun, hspells.mpr h⟩⟩
  | operator o =>
    have hnext : o = .assign ∨ o = .bang → (none : Option Char) ≠ some '=' := by simp
    exact ⟨fun h => String.toList_inj.mp h.1, fun h => ⟨String.toList_inj.mpr h, hnext⟩⟩
  | punctuation p => exact String.toList_inj
  | _ => cases hkind

theorem isToken_iff_spelledBy {kind : TokenKind} (hkind : kind.isListed = true) {s : String} :
    IsToken kind s ↔ kind.SpelledBy s := by
  rw [← admits_iff_spelledBy hkind]
  refine isToken_iff_admits fun b hb => ?_
  rw [hb] at hkind
  cases hkind

theorem TokenKind.SpelledBy.isListed {kind : TokenKind} {s : String} (h : kind.SpelledBy s) :
    kind.isListed = true := by
  cases kind <;> first | rfl | exact h.elim

/-- No text is a spelling of two kinds. -/
theorem TokenKind.SpelledBy.unique {kind kind' : TokenKind} {s : String} (h : kind.SpelledBy s)
    (h' : kind'.SpelledBy s) : kind = kind' := by
  have htoken := (isToken_iff_spelledBy h.isListed).mpr h
  rw [IsToken, (isToken_iff_spelledBy h'.isListed).mpr h'] at htoken
  obtain ⟨heq, -⟩ := List.cons.inj htoken
  exact (congrArg Lexeme.kind heq).symm

theorem ofSpelling?_iff_isToken (s : String) :
    (∀ o, Operator.ofSpelling? s = some o ↔ IsToken (.operator o) s) ∧
    (∀ o, Operator.ofSpelling? s = some o ↔ s = o.spelling) ∧
    (∀ p, Punctuation.ofSpelling? s = some p ↔ IsToken (.punctuation p) s) ∧
    (∀ p, Punctuation.ofSpelling? s = some p ↔ s = p.spelling) ∧
    (∀ k, Keyword.ofSpelling? s = some k ↔ IsToken (.keyword k) s) ∧
    (∀ k, Keyword.ofSpelling? s = some k ↔ s = k.spelling ∨ s ∈ k.aliases) ∧
    ∀ kind kind' : TokenKind, kind.SpelledBy s → kind'.SpelledBy s → kind = kind' := by
  refine ⟨fun o => ?_, fun o => Operator.ofSpelling?_eq_some_iff, fun p => ?_,
    fun p => Punctuation.ofSpelling?_eq_some_iff, fun k => ?_,
    fun k => Keyword.ofSpelling?_eq_some_iff, fun _ _ => TokenKind.SpelledBy.unique⟩
  · rw [Operator.ofSpelling?_eq_some_iff, isToken_iff_spelledBy rfl]
    rfl
  · rw [Punctuation.ofSpelling?_eq_some_iff, isToken_iff_spelledBy rfl]
    rfl
  · rw [Keyword.ofSpelling?_eq_some_iff, isToken_iff_spelledBy rfl]
    rfl

/-- The alias `function` scans as its keyword, and is a spelling of nothing else. -/
theorem isToken_function :
    IsToken (.keyword .fnKw) "function" ∧
      ∀ kind : TokenKind, kind.SpelledBy "function" → kind = .keyword .fnKw := by
  obtain ⟨-, -, -, -, htoken, -, hunique⟩ := ofSpelling?_iff_isToken "function"
  have halias : (TokenKind.keyword .fnKw).SpelledBy "function" := .inr (by decide)
  exact ⟨(htoken _).mp (by decide), fun kind h => hunique _ _ h halias⟩

end ScriptFrontend
