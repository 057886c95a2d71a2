import ScriptFrontend.Text.Bytes
import ScriptFrontend.Token.Lexeme

/-!
# Tokens of a source

A `Cursor` is a place in a source text: the byte offset and the characters from there on.
`Cursor.next` skips blanks and takes one lexeme; at the end of the text it answers the end token
and stays. `tokenize` takes tokens up to and including the first end token. It accepts every text:
faults are kinds of tokens.
-/

namespace ScriptFrontend

/-- A byte offset into a source and the text from there to the end of the source. -/
structure Cursor where
  offset : Nat
  rest : List Char
  deriving DecidableEq, Repr

namespace Cursor

def ofSource (source : String) : Cursor := ⟨0, source.toList⟩

def skipBlanks (p : Cursor) : Cursor :=
  ⟨p.offset + Text.byteLength (p.rest.takeWhile isBlank), p.rest.dropWhile isBlank⟩

/-- The token for a lexeme that starts at the byte offset. -/
def tokenAt (offset : Nat) (l : Lexeme) : Token :=
  ⟨l.kind, String.ofList l.literal, ⟨offset, offset + Text.byteLength l.text⟩⟩

theorem text_tokenAt (offset : Nat) (l : Lexeme) :
    (tokenAt offset l).text = String.ofList l.text := by
  simp [Token.text, tokenAt, Lexeme.text]

/-- Takes the token at the first character that is not a blank. -/
def takeToken (p : Cursor) : Token × Cursor :=
  match p.rest with
  | [] => (.eof p.offset, p)
  | c :: cs =>
    let (lexeme, rest) := Lexeme.scan c cs
    let token := tokenAt p.offset lexeme
    (token, ⟨token.span.stop, rest⟩)

def next (p : Cursor) : Token × Cursor := p.skipBlanks.takeToken

theorem length_rest_skipBlanks_le (p : Cursor) :
    p.skipBlanks.rest.length ≤ p.rest.length :=
  (List.dropWhile_sublist isBlank).length_le

/-- Taking a token other than the end leaves less to read. -/
theorem length_rest_takeToken (p : Cursor) :
    p.takeToken.2.rest.length + (if p.takeToken.1.isEof then 0 else 1) ≤ p.rest.length := by
  unfold takeToken
  split
  next h => simp [h, Token.eof, Token.isEof, TokenKind.isEof]
  next c cs h =>
    have := Lexeme.length_rest_scan_le c cs
    rw [h, List.length_cons]
    dsimp only
    split <;> omega

theorem length_rest_next (p : Cursor) :
    p.next.2.rest.length + (if p.next.1.isEof then 0 else 1) ≤ p.rest.length :=
  Nat.le_trans (length_rest_takeToken p.skipBlanks) (length_rest_skipBlanks_le p)

theorem length_rest_lt_of_next {p q : Cursor} {t : Token} (h : p.next = (t, q))
    (ht : ¬ t.isEof = true) : q.rest.length < p.rest.length := by
  have := length_rest_next p
  rw [h, if_neg ht] at this
  exact this

/-- The tokens from here up to and including the first end token. -/
def tokens (p : Cursor) : List Token :=
  match _h : p.next with
  | (t, q) => if _ht : t.isEof then [t] else t :: q.tokens
termination_by p.rest.length
decreasing_by exact length_rest_lt_of_next _h _ht

end Cursor

def tokenize (source : String) : List Token := (Cursor.ofSource source).tokens

end ScriptFrontend
