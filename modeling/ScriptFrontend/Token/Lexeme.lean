import ScriptFrontend.Token.Basic

/-!
# Lexemes

A `Lexeme` is the longest token text at the head of a text that does not start with a blank. The
first character decides its kind, apart from words, which may be keywords, and numbers, where any
dot makes a float. Nothing is refused: what begins no lexeme is an illegal character of its own.

`text_scan` says that scanning loses nothing: the text of the lexeme and the rest make up the
input.
-/

namespace ScriptFrontend

/-- Space, tab, line feed and carriage return separate lexemes. -/
def isBlank (c : Char) : Bool := c == ' ' || c == '\t' || c == '\n' || c == '\r'

/-- ASCII letters and the underscore make up words; a digit ends one. -/
def isWordChar (c : Char) : Bool := c.isAlpha || c == '_'

/-- ASCII digits and dots make up numbers, in any order. -/
def isNumberChar (c : Char) : Bool := c.isDigit || c == '.'

/-- The operator or mark that the character is on its own. -/
def TokenKind.ofSymbol? : Char → Option TokenKind
  | '=' => some (.operator .assign)
  | '!' => some (.operator .bang)
  | '+' => some (.operator .plus)
  | '-' => some (.operator .minus)
  | '*' => some (.operator .star)
  | '/' => some (.operator .slash)
  | '<' => some (.operator .less)
  | '>' => some (.operator .greater)
  | ',' => some (.punctuation .comma)
  | ';' => some (.punctuation .semicolon)
  | ':' => some (.punctuation .colon)
  | '(' => some (.punctuation .openParen)
  | ')' => some (.punctuation .closeParen)
  | '\x7b' => some (.punctuation .openBrace)
  | '\x7d' => some (.punctuation .closeBrace)
  | '[' => some (.punctuation .openBracket)
  | ']' => some (.punctuation .closeBracket)
  | _ => none

/-- The operator that the character and a following `=` make. -/
def Operator.beforeEquals? : Char → Option Operator
  | '=' => some .equal
  | '!' => some .notEqual
  | _ => none

/-- A run of digits and dots is a float as soon as there is a dot in it. -/
def TokenKind.ofNumber (run : List Char) : TokenKind := if run.contains '.' then float else int

/-- A kind and the literal that goes with it: for a string the text between its quotes. -/
structure Lexeme where
  kind : TokenKind
  literal : List Char
  deriving DecidableEq, Repr

namespace Lexeme

/-- The characters that the lexeme covers. -/
def text (l : Lexeme) : List Char := l.kind.enclose l.literal

/-- Reads a string after its opening quote, to the next quote or else to the end. -/
def scanString (cs : List Char) : Lexeme × List Char :=
  let literal := cs.takeWhile (· != '\"')
  match cs.dropWhile (· != '\"') with
  | [] => (⟨.string false, literal⟩, [])
  | _ :: rest => (⟨.string true, literal⟩, rest)

/-- Reads an operator or mark after its first character; `kind` is what that is on its own. -/
def scanSymbol (kind : TokenKind) (c : Char) (cs : List Char) : Lexeme × List Char :=
  match Operator.beforeEquals? c, cs with
  | some o, '=' :: rest => (⟨.operator o, [c, '=']⟩, rest)
  | _, _ => (⟨kind, [c]⟩, cs)

def scanNumber (cs : List Char) : Lexeme × List Char :=
  let run := cs.takeWhile isNumberChar
  (⟨.ofNumber run, run⟩, cs.dropWhile isNumberChar)

def scanWord (cs : List Char) : Lexeme × List Char :=
  let word := cs.takeWhile isWordChar
  (⟨.ofWord (String.ofList word), word⟩, cs.dropWhile isWordChar)

/-- The lexeme at the head of the text `c :: cs`, and the text after it. -/
def scan (c : Char) (cs : List Char) : Lexeme × List Char :=
  if c == '\"' then
    scanString cs
  else
    match TokenKind.ofSymbol? c with
    | some kind => scanSymbol kind c cs
    | none =>
      if isNumberChar c then scanNumber (c :: cs)
      else if isWordChar c then scanWord (c :: cs)
      else (⟨.illegal, [c]⟩, cs)

end Lexeme

/-! ## Nothing is lost -/

theorem TokenKind.enclose_of_not_string {kind : TokenKind} (h : ∀ b, kind ≠ .string b)
    (literal : List Char) : kind.enclose literal = literal := by
  cases kind with
  | string b => exact absurd rfl (h b)
  | _ => rfl

theorem TokenKind.ofWord_ne_string (word : String) (b : Bool) : ofWord word ≠ .string b := by
  unfold ofWord; split <;> simp

theorem TokenKind.ofNumber_ne_string (run : List Char) (b : Bool) : ofNumber run ≠ .string b := by
  unfold ofNumber; split <;> simp

/-- A symbol is an operator or a mark. -/
theorem TokenKind.ofSymbol?_eq_some {c : Char} {kind : TokenKind} (h : ofSymbol? c = some kind) :
    (∃ o, kind = .operator o) ∨ ∃ p, kind = .punctuation p := by
  unfold ofSymbol? at h
  split at h <;> cases h <;> simp

namespace Lexeme

theorem text_scanString (cs : List Char) :
    (scanString cs).1.text ++ (scanString cs).2 = '\"' :: cs := by
  have whole := List.takeWhile_append_dropWhile (p := (· != '\"')) (l := cs)
  unfold scanString
  split
  next h => rw [h, List.append_nil] at whole; simp [text, TokenKind.enclose, whole]
  next q rest h =>
    have hq : q = '\"' := by
      have := List.head_dropWhile_not (p := (· != '\"')) (l := cs) (by simp [h])
      simpa [h] using this
    rw [h, hq] at whole
    simp [text, TokenKind.enclose, whole]

theorem text_scanSymbol {kind : TokenKind} (h : ∀ b, kind ≠ .string b) (c : Char)
    (cs : List Char) : (scanSymbol kind c cs).1.text ++ (scanSymbol kind c cs).2 = c :: cs := by
  unfold scanSymbol
  split
  · simp [text, TokenKind.enclose]
  · simp [text, TokenKind.enclose_of_not_string h]

theorem text_scanNumber (cs : List Char) :
    (scanNumber cs).1.text ++ (scanNumber cs).2 = cs := by
  unfold scanNumber text
  rw [TokenKind.enclose_of_not_string (TokenKind.ofNumber_ne_string _)]
  exact List.takeWhile_append_dropWhile

theorem text_scanWord (cs : List Char) : (scanWord cs).1.text ++ (scanWord cs).2 = cs := by
  unfold scanWord text
  rw [TokenKind.enclose_of_not_string (TokenKind.ofWord_ne_string _)]
  exact List.takeWhile_append_dropWhile

theorem text_scan (c : Char) (cs : List Char) :
    (scan c cs).1.text ++ (scan c cs).2 = c :: cs := by
  unfold scan
  split
  next h => rw [text_scanString, (beq_iff_eq.mp h)]
  next =>
    split
    next kind h =>
      refine text_scanSymbol (fun b => ?_) c cs
      rcases TokenKind.ofSymbol?_eq_some h with ⟨o, rfl⟩ | ⟨p, rfl⟩ <;> simp
    next =>
      split
      · exact text_scanNumber (c :: cs)
      · split
        · exact text_scanWord (c :: cs)
        · simp [text, TokenKind.enclose]

/-- Every lexeme covers at least one character. -/
theorem text_scan_ne_nil (c : Char) (cs : List Char) : (scan c cs).1.text ≠ [] := by
  unfold scan
  split
  · unfold scanString; split <;> simp [text, TokenKind.enclose]
  · split
    next kind h =>
      unfold scanSymbol
      split
      · simp [text, TokenKind.enclose]
      · rcases TokenKind.ofSymbol?_eq_some h with ⟨o, rfl⟩ | ⟨p, rfl⟩ <;>
          simp [text, TokenKind.enclose]
    next =>
      split
      next h =>
        rw [scanNumber, text, TokenKind.enclose_of_not_string (TokenKind.ofNumber_ne_string _)]
        simp [h]
      next =>
        split
        next h =>
          rw [scanWord, text, TokenKind.enclose_of_not_string (TokenKind.ofWord_ne_string _)]
          simp [h]
        next => simp [text, TokenKind.enclose]

/-- The rest is shorter, since the lexeme covers something. -/
theorem length_rest_scan_le (c : Char) (cs : List Char) : (scan c cs).2.length ≤ cs.length := by
  have whole := congrArg List.length (text_scan c cs)
  have some := List.length_pos_iff.mpr (text_scan_ne_nil c cs)
  simp only [List.length_append, List.length_cons] at whole
  omega

end Lexeme

end ScriptFrontend
