import ScriptFrontend.Diagnostic
import ScriptFrontend.Proofs.Tokenize.Concatenation

/-!
# Texts that spell lexemes

`lexemes` are what the tokens of a text say, apart from their places. `Spells text ls rest` says
that in front of `rest` the text gives the lexemes `ls`, none of them faulty. Blanks, single
lexemes and texts in a row have it (`Spells.blank`, `Spells.lexeme`, `Spells.append`), so that what
a composed text spells follows from its parts, each in front of all that comes after it.
-/

namespace ScriptFrontend

open Text Cursor

/-- What the token says, wherever it stands. -/
def Token.lexeme (t : Token) : Lexeme := ⟨t.kind, t.literal.toList⟩

namespace Lexeme

def eof : Lexeme := ⟨.eof, []⟩

def mark (p : Punctuation) : Lexeme := ⟨.punctuation p, p.spelling.toList⟩

def operator (o : Operator) : Lexeme := ⟨.operator o, o.spelling.toList⟩

/-- The keyword in its canonical spelling. -/
def keyword (k : Keyword) : Lexeme := ⟨.keyword k, k.spelling.toList⟩

/-- A token that says this encodes no fault. -/
def Sound (l : Lexeme) : Prop :=
  ∀ span, Diagnostic.ofToken? ⟨l.kind, String.ofList l.literal, span⟩ = none

end Lexeme

/-- What the tokens of the text say. -/
def lexemes (cs : List Char) : List Lexeme := (tokens ⟨0, cs⟩).map Token.lexeme

theorem map_lexeme_tokens (n : Nat) (cs : List Char) :
    (tokens ⟨n, cs⟩).map Token.lexeme = lexemes cs := by
  rw [tokens_shift, List.map_map]
  rfl

theorem lexeme_tokenAt (n : Nat) (l : Lexeme) : (tokenAt n l).lexeme = l := by
  rw [Token.lexeme, tokenAt, String.toList_ofList]

theorem lexemes_nil : lexemes [] = [.eof] := by
  rw [lexemes, tokens_nil]
  rfl

theorem lexemes_blank {c : Char} (hc : isBlank c = true) (rest : List Char) :
    lexemes (c :: rest) = lexemes rest := by
  have hgap : Blank [c] := by simpa [Blank] using hc
  have hread := ((reading_tokens ([] ++ [c]) rest).blanks hgap).tokens_eq
  rw [byteLength_nil, List.singleton_append] at hread
  rw [lexemes, hread, map_lexeme_tokens]

theorem lexemes_of_fits {l : Lexeme} {rest : List Char} (h : l.Fits rest) :
    lexemes (l.text ++ rest) = l :: lexemes rest := by
  have htokens := tokens_of_lexeme [] h
  rw [byteLength_nil] at htokens
  rw [lexemes, htokens, List.map_cons, lexeme_tokenAt, map_lexeme_tokens]

/-- In front of `rest` the text gives these lexemes, and they are sound. -/
structure Spells (text : List Char) (ls : List Lexeme) (rest : List Char) : Prop where
  lexemes_eq : lexemes (text ++ rest) = ls ++ lexemes rest
  sound : ∀ l ∈ ls, l.Sound

namespace Spells

variable {as bs text rest : List Char} {ls ms : List Lexeme} {l : Lexeme}

theorem nil : Spells [] [] rest := ⟨rfl, fun _ h => nomatch h⟩

theorem append (ha : Spells as ls (bs ++ rest)) (hb : Spells bs ms rest) :
    Spells (as ++ bs) (ls ++ ms) rest where
  lexemes_eq := by rw [List.append_assoc, ha.lexemes_eq, hb.lexemes_eq, List.append_assoc]
  sound l hl := (List.mem_append.mp hl).elim (ha.sound l) (hb.sound l)

theorem cons (ha : Spells as [l] (bs ++ rest)) (hb : Spells bs ms rest) :
    Spells (as ++ bs) (l :: ms) rest := ha.append hb

theorem blank : Spells [' '] [] rest := ⟨lexemes_blank (by decide) rest, fun _ h => nomatch h⟩

theorem skip (h : Spells bs ms rest) : Spells ([' '] ++ bs) ms rest := blank.append h

theorem lexeme (h : l.Fits rest) (hsound : l.Sound) : Spells l.text [l] rest where
  lexemes_eq := lexemes_of_fits h
  sound _ hm := List.mem_singleton.mp hm ▸ hsound

theorem mark (p : Punctuation) : Spells p.spelling.toList [.mark p] rest :=
  lexeme (l := .mark p) rfl fun _ => rfl

/-- Only `=` can go on with an operator. -/
theorem operator (o : Operator) (hrest : rest.head? ≠ some '=') :
    Spells o.spelling.toList [.operator o] rest :=
  lexeme (l := .operator o) ⟨rfl, fun _ => hrest⟩ fun _ => rfl

/-- Between blanks an operator stays what it is. -/
theorem spaced (o : Operator) (h : Spells bs ms rest) :
    Spells ([' '] ++ (o.spelling.toList ++ ([' '] ++ bs))) (.operator o :: ms) rest := by
  have hhead : ([' '] ++ bs ++ rest).head? ≠ some '=' := by simp
  exact skip (cons (operator o hhead) (skip h))

end Spells

/-! ## Accepted sources -/

/-- `lex` accepts a source that spells sound lexemes. -/
theorem lex_of_spells {source : String} {ls : List Lexeme} (h : Spells source.toList ls []) :
    ∃ tokens, lex source = .ok tokens ∧ tokens.map Token.lexeme = ls ++ [.eof] := by
  have hmap : (tokenize source).map Token.lexeme = ls ++ [.eof] := by
    have heq := h.lexemes_eq
    rwa [List.append_nil, lexemes_nil] at heq
  have hnone : Diagnostic.check (tokenize source) = [] := by
    rw [Diagnostic.check, List.filterMap_eq_nil_iff]
    intro t ht
    have hl := List.mem_map_of_mem (f := Token.lexeme) ht
    rw [hmap, List.mem_append, List.mem_singleton] at hl
    have hsound : t.lexeme.Sound := by
      rcases hl with hl | hl
      · exact h.sound _ hl
      · exact hl ▸ fun _ => rfl
    have ht := hsound t.span
    rwa [Token.lexeme, String.ofList_toList] at ht
  exact ⟨tokenize source, by rw [lex, hnone, acceptUnless], hmap⟩

end ScriptFrontend
