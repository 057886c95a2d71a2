import ScriptFrontend.Proofs.Text.Slice
import ScriptFrontend.Proofs.Lexeme.Grammar

/-!
# Shapes of lexemes

`Lexeme.Shape` lists what a lexeme before the rest of a text can be made of: a quoted text, a run
of one class, a spelling of the vocabulary, or a character that has no place outside strings. A
lexeme that fits has one of the shapes (`Fits.shape`), and a quote, a digit or an alien character
in it tells which (`Fits.exists_string`, `Fits.exists_number`, `Fits.eq_illegal`).
-/

namespace ScriptFrontend

/-- The characters that operators are made of. -/
def operatorChars : List Char := ['=', '!', '+', '-', '*', '/', '<', '>']

/-- The characters that are marks. -/
def markChars : List Char := [',', ';', ':', '(', ')', '\x7b', '\x7d', '[', ']']

/-- A character that begins no lexeme and is no blank. -/
structure Alien (c : Char) : Prop where
  not_blank : isBlank c = false
  not_word : isWordChar c = false
  not_number : isNumberChar c = false
  not_quote : c ≠ '\"'
  not_operator : c ∉ operatorChars
  not_mark : c ∉ markChars

theorem mem_operatorChars_of_spelling {o : Operator} :
    ∀ c ∈ o.spelling.toList, c ∈ operatorChars := by
  cases o <;> simp [Operator.spelling, operatorChars]

theorem mem_markChars_of_spelling {p : Punctuation} :
    ∀ c ∈ p.spelling.toList, c ∈ markChars := by
  cases p <;> simp [Punctuation.spelling, markChars]

theorem exists_operator_of_mem {c : Char} (h : c ∈ operatorChars) :
    ∃ o : Operator, o.spelling.toList = [c] := by
  simp only [operatorChars, List.mem_cons, List.not_mem_nil, or_false] at h
  rcases h with rfl | rfl | rfl | rfl | rfl | rfl | rfl | rfl
  · exact ⟨.assign, rfl⟩
  · exact ⟨.bang, rfl⟩
  · exact ⟨.plus, rfl⟩
  · exact ⟨.minus, rfl⟩
  · exact ⟨.star, rfl⟩
  · exact ⟨.slash, rfl⟩
  · exact ⟨.less, rfl⟩
  · exact ⟨.greater, rfl⟩

theorem exists_mark_of_mem {c : Char} (h : c ∈ markChars) :
    ∃ p : Punctuation, p.spelling.toList = [c] := by
  simp only [markChars, List.mem_cons, List.not_mem_nil, or_false] at h
  rcases h with rfl | rfl | rfl | rfl | rfl | rfl | rfl | rfl | rfl
  · exact ⟨.comma, rfl⟩
  · exact ⟨.semicolon, rfl⟩
  · exact ⟨.colon, rfl⟩
  · exact ⟨.openParen, rfl⟩
  · exact ⟨.closeParen, rfl⟩
  · exact ⟨.openBrace, rfl⟩
  · exact ⟨.closeBrace, rfl⟩
  · exact ⟨.openBracket, rfl⟩
  · exact ⟨.closeBracket, rfl⟩

/-- The characters of the vocabulary's symbols. -/
def symbolChars : List Char := operatorChars ++ markChars

theorem classes_of_mem_symbolChars {c : Char} (h : c ∈ symbolChars) :
    c ≠ '\"' ∧ isNumberChar c = false ∧ ¬ Alien c := by
  refine ⟨?_, ?_, fun halien => ?_⟩
  · rintro rfl
    exact absurd h (by decide)
  · have hall : symbolChars.all (fun c => !isNumberChar c) = true := by decide
    simpa using List.all_eq_true.mp hall c h
  · rcases List.mem_append.mp h with h | h
    · exact halien.not_operator h
    · exact halien.not_mark h

theorem TokenKind.admits_illegal_iff {text : List Char} {next : Option Char} :
    Admits text next .illegal ↔ ∃ c, text = [c] ∧ Alien c := by
  constructor
  · rintro ⟨c, htext, hblank, hword, hnumber, hquote, hop, hmark⟩
    refine ⟨c, htext, hblank, hword, hnumber, hquote, fun hc => ?_, fun hc => ?_⟩
    · obtain ⟨o, ho⟩ := exists_operator_of_mem hc
      exact hop o ho
    · obtain ⟨p, hp⟩ := exists_mark_of_mem hc
      exact hmark p hp
  · rintro ⟨c, htext, hc⟩
    refine ⟨c, htext, hc.not_blank, hc.not_word, hc.not_number, hc.not_quote, fun o ho => ?_,
      fun p hp => ?_⟩
    · exact hc.not_operator (mem_operatorChars_of_spelling c (ho ▸ List.mem_singleton_self c))
    · exact hc.not_mark (mem_markChars_of_spelling c (hp ▸ List.mem_singleton_self c))

theorem Alien.ofSymbol?_eq_none {c : Char} (h : Alien c) : TokenKind.ofSymbol? c = none := by
  refine Option.eq_none_iff_forall_ne_some.mpr fun kind hkind => ?_
  rcases TokenKind.ofSymbol?_eq_some_iff.mp hkind with ⟨o, -, ho⟩ | ⟨p, -, hp⟩
  · exact h.not_operator (mem_operatorChars_of_spelling c (ho ▸ List.mem_singleton_self c))
  · exact h.not_mark (mem_markChars_of_spelling c (hp ▸ List.mem_singleton_self c))

namespace TokenKind

theorem ofWord_eq_keyword_iff {text : List Char} {k : Keyword} :
    ofWord (String.ofList text) = .keyword k ↔ k.Spells text := by
  rw [Keyword.Spells, ← Keyword.ofSpelling?_eq_some_iff]
  unfold ofWord
  split
  next k' h => simp [h]
  next h => simp [h]

theorem ofWord_eq_ident_iff {text : List Char} :
    ofWord (String.ofList text) = .ident ↔ ∀ k : Keyword, ¬ k.Spells text := by
  simp only [Keyword.Spells, ← Keyword.ofSpelling?_eq_some_iff]
  unfold ofWord
  split
  next k h => simp [h]
  next h => simp [h]

end TokenKind

inductive Lexeme.Shape : Lexeme → List Char → Prop where
  /-- Only the end of the text can leave a string open. -/
  | string {body rest : List Char} {terminated : Bool} (hbody : '\"' ∉ body)
      (hend : terminated = false → rest = []) : Shape ⟨.string terminated, body⟩ rest
  | number {run rest : List Char} (hrun : MaximalRun isNumberChar run rest.head?) :
      Shape ⟨.ofNumber run, run⟩ rest
  | word {run rest : List Char} (hrun : MaximalRun isWordChar run rest.head?) :
      Shape ⟨.ofWord (String.ofList run), run⟩ rest
  | operator {o : Operator} {rest : List Char}
      (hstop : o = .assign ∨ o = .bang → rest.head? ≠ some '=') :
      Shape ⟨.operator o, o.spelling.toList⟩ rest
  | mark {p : Punctuation} {rest : List Char} : Shape ⟨.punctuation p, p.spelling.toList⟩ rest
  | illegal {c : Char} {rest : List Char} (hc : Alien c) : Shape ⟨.illegal, [c]⟩ rest

namespace Lexeme

variable {rest : List Char}

theorem text_of_not_string {kind : TokenKind} (h : ∀ b, kind ≠ .string b) (literal : List Char) :
    text ⟨kind, literal⟩ = literal :=
  TokenKind.enclose_of_not_string h literal

theorem Fits.shape {l : Lexeme} (h : l.Fits rest) : l.Shape rest := by
  obtain ⟨kind, literal⟩ := l
  unfold Fits at h
  cases kind with
  | keyword k =>
    rw [text_of_not_string (by simp)] at h
    rw [← TokenKind.ofWord_eq_keyword_iff.mpr h.2]
    exact .word h.1
  | ident =>
    rw [text_of_not_string (by simp)] at h
    rw [← TokenKind.ofWord_eq_ident_iff.mpr h.2]
    exact .word h.1
  | int =>
    rw [text_of_not_string (by simp)] at h
    rw [show TokenKind.int = .ofNumber literal by simp [TokenKind.ofNumber, h.2]]
    exact .number h.1
  | float =>
    rw [text_of_not_string (by simp)] at h
    rw [show TokenKind.float = .ofNumber literal by simp [TokenKind.ofNumber, h.2]]
    exact .number h.1
  | operator o =>
    rw [text_of_not_string (by simp)] at h
    obtain rfl : literal = o.spelling.toList := h.1
    exact .operator h.2
  | punctuation p =>
    rw [text_of_not_string (by simp)] at h
    obtain rfl : literal = p.spelling.toList := h
    exact .mark
  | string terminated =>
    cases terminated with
    | true =>
      obtain ⟨body, hbody, htext⟩ := h
      obtain rfl : literal = body := by simpa [text, TokenKind.enclose] using htext
      exact .string hbody (by simp)
    | false =>
      obtain ⟨body, hbody, htext, hend⟩ := h
      obtain rfl : literal = body := by simpa [text, TokenKind.enclose] using htext
      exact .string hbody fun _ => List.head?_eq_none_iff.mp hend
  | illegal =>
    obtain ⟨c, htext, hc⟩ := TokenKind.admits_illegal_iff.mp h
    obtain rfl : literal = [c] := htext
    exact .illegal hc
  | eof => exact h.elim

theorem text_ofNumber (run : List Char) : text ⟨.ofNumber run, run⟩ = run :=
  text_of_not_string (TokenKind.ofNumber_ne_string run) run

theorem text_ofWord (run : List Char) : text ⟨.ofWord (String.ofList run), run⟩ = run :=
  text_of_not_string (TokenKind.ofWord_ne_string _) run

theorem mem_symbolChars_of_operator {o : Operator} {c : Char}
    (h : c ∈ text ⟨.operator o, o.spelling.toList⟩) : c ∈ symbolChars :=
  List.mem_append_left _ (mem_operatorChars_of_spelling c h)

theorem mem_symbolChars_of_mark {p : Punctuation} {c : Char}
    (h : c ∈ text ⟨.punctuation p, p.spelling.toList⟩) : c ∈ symbolChars :=
  List.mem_append_right _ (mem_markChars_of_spelling c h)

theorem Fits.not_mem_of_string {l : Lexeme} (h : l.Fits rest) {terminated : Bool}
    (hkind : l.kind = .string terminated) : '\"' ∉ l.literal := by
  cases h.shape with
  | string hbody _ => exact hbody
  | number _ => exact absurd hkind (TokenKind.ofNumber_ne_string _ _)
  | word _ => exact absurd hkind (TokenKind.ofWord_ne_string _ _)
  | operator _ => cases hkind
  | mark => cases hkind
  | illegal _ => cases hkind

/-- Between the ends of a string the reader is past one quote. -/
theorem count_quote_of_string {body as bs : List Char} {terminated : Bool} {c : Char}
    (hbody : '\"' ∉ body) (h : text ⟨.string terminated, body⟩ = as ++ c :: bs) :
    as = [] ∧ c = '\"' ∨ as.count '\"' = 1 := by
  have htext : text ⟨.string terminated, body⟩ =
      '\"' :: (body ++ if terminated then ['\"'] else []) := by
    cases terminated <;> simp [text, TokenKind.enclose]
  rw [htext] at h
  cases as with
  | nil => exact .inl ⟨rfl, (List.cons.inj h).1.symm⟩
  | cons a as =>
    obtain ⟨rfl, htail⟩ := List.cons.inj h
    right
    rw [List.count_cons_self, List.count_eq_zero.mpr]
    rcases Text.append_eq_append_cons htail with ⟨ws, rfl⟩ | ⟨ws, rfl, hclose⟩
    · exact fun hmem => hbody (List.mem_append_left _ hmem)
    · -- `c` is the closing quote, and the body is all before it
      obtain rfl : ws = [] := by
        have hlength := congrArg List.length hclose
        have hle : (if terminated then ['\"'] else []).length ≤ 1 := by cases terminated <;> decide
        rw [List.length_append, List.length_cons] at hlength
        exact List.eq_nil_of_length_eq_zero (by omega)
      rwa [List.append_nil]

/-! ## What one character tells -/

variable {l : Lexeme} {c : Char}

theorem Fits.exists_string (h : l.Fits rest) (hmem : '\"' ∈ l.text) :
    ∃ terminated body, l = ⟨.string terminated, body⟩ := by
  cases h.shape with
  | string _ _ => exact ⟨_, _, rfl⟩
  | number hrun =>
    rw [text_ofNumber] at hmem
    exact absurd (hrun.inside _ hmem) (by decide)
  | word hrun =>
    rw [text_ofWord] at hmem
    exact absurd (hrun.inside _ hmem) (by decide)
  | operator _ => exact absurd rfl (classes_of_mem_symbolChars (mem_symbolChars_of_operator hmem)).1
  | mark => exact absurd rfl (classes_of_mem_symbolChars (mem_symbolChars_of_mark hmem)).1
  | illegal hc =>
    obtain rfl := List.mem_singleton.mp hmem
    exact absurd rfl hc.not_quote

/-- Outside of strings a digit or dot is part of a number. -/
theorem Fits.exists_number (h : l.Fits rest) (hstring : ∀ b, l.kind ≠ .string b)
    (hmem : c ∈ l.text) (hc : isNumberChar c = true) :
    ∃ run, l = ⟨.ofNumber run, run⟩ ∧ MaximalRun isNumberChar run rest.head? := by
  cases h.shape with
  | string _ _ => exact absurd rfl (hstring _)
  | number hrun => exact ⟨_, rfl, hrun⟩
  | word hrun =>
    rw [text_ofWord] at hmem
    rw [isNumberChar_of_isWordChar (hrun.inside c hmem)] at hc
    cases hc
  | operator _ =>
    rw [(classes_of_mem_symbolChars (mem_symbolChars_of_operator hmem)).2.1] at hc
    cases hc
  | mark =>
    rw [(classes_of_mem_symbolChars (mem_symbolChars_of_mark hmem)).2.1] at hc
    cases hc
  | illegal halien =>
    obtain rfl := List.mem_singleton.mp hmem
    rw [halien.not_number] at hc
    cases hc

/-- Outside of strings an alien character stands alone. -/
theorem Fits.eq_illegal (h : l.Fits rest) (hstring : ∀ b, l.kind ≠ .string b)
    (hmem : c ∈ l.text) (hc : Alien c) : l = ⟨.illegal, [c]⟩ := by
  cases h.shape with
  | string _ _ => exact absurd rfl (hstring _)
  | number hrun =>
    rw [text_ofNumber] at hmem
    exact absurd (hrun.inside c hmem) (Bool.eq_false_iff.mp hc.not_number)
  | word hrun =>
    rw [text_ofWord] at hmem
    exact absurd (hrun.inside c hmem) (Bool.eq_false_iff.mp hc.not_word)
  | operator _ =>
    exact absurd hc (classes_of_mem_symbolChars (mem_symbolChars_of_operator hmem)).2.2
  | mark => exact absurd hc (classes_of_mem_symbolChars (mem_symbolChars_of_mark hmem)).2.2
  | illegal _ =>
    obtain rfl := List.mem_singleton.mp hmem
    rfl

end Lexeme

end ScriptFrontend
