import ScriptFrontend.Span
import ScriptFrontend.Vocabulary

/-!
# Tokens

A `Token` has a kind, a literal text and a span. The kind carries no text: words and symbols of the
vocabulary are known by their place in it. For strings the literal leaves out the quotes, which
`Token.text` puts back.
-/

namespace ScriptFrontend

inductive TokenKind where
  | keyword (k : Keyword)
  | operator (o : Operator)
  | punctuation (p : Punctuation)
  | ident
  | int
  | float
  /-- `terminated` tells whether there is a closing quote. -/
  | string (terminated : Bool)
  /-- A character that begins no other token. -/
  | illegal
  | eof
  deriving DecidableEq, Repr

namespace TokenKind

def all : List TokenKind :=
  Keyword.all.map keyword ++ Operator.all.map operator ++ Punctuation.all.map punctuation ++
    [ident, int, float, string true, string false, illegal, eof]

theorem mem_all (kind : TokenKind) : kind ∈ all := by
  cases kind <;> simp [all, Keyword.mem_all, Operator.mem_all, Punctuation.mem_all]

/-- The name by which messages call the kind. -/
def name : TokenKind → String
  | keyword k => "Keyword(" ++ k.name ++ ")"
  | operator o => "Operator(" ++ o.name ++ ")"
  | punctuation p => "Punctuation(" ++ p.name ++ ")"
  | ident => "Ident"
  | int => "Int"
  | float => "Float"
  | string true => "String \x7b terminated: true \x7d"
  | string false => "String \x7b terminated: false \x7d"
  | illegal => "Illegal"
  | eof => "Eof"

def keyword? : TokenKind → Option Keyword
  | keyword k => some k
  | _ => none

def operator? : TokenKind → Option Operator
  | operator o => some o
  | _ => none

def punctuation? : TokenKind → Option Punctuation
  | punctuation p => some p
  | _ => none

def isKeyword (kind : TokenKind) (k : Keyword) : Bool := kind == keyword k

def isOperator (kind : TokenKind) (o : Operator) : Bool := kind == operator o

def isPunctuation (kind : TokenKind) (p : Punctuation) : Bool := kind == punctuation p

/-- Numbers, strings, and the keywords that the vocabulary counts as literals. -/
def isLiteral : TokenKind → Bool
  | int | float | string _ => true
  | keyword k => k.category == .literal
  | _ => false

def isEof : TokenKind → Bool
  | eof => true
  | _ => false

/-- A word is the keyword it spells, and otherwise an identifier. -/
def ofWord (word : String) : TokenKind :=
  match Keyword.ofSpelling? word with
  | some k => keyword k
  | none => ident

/-- The source text of a token of this kind: the quotes of a string enclose its literal. -/
def enclose (kind : TokenKind) (literal : List Char) : List Char :=
  match kind with
  | string true => '\"' :: literal ++ ['\"']
  | string false => '\"' :: literal
  | _ => literal

end TokenKind

structure Token where
  kind : TokenKind
  literal : String
  span : Span
  deriving DecidableEq, Repr

namespace Token

/-- The end of the source, at its last byte offset. -/
def eof (offset : Nat) : Token := ⟨.eof, "", ⟨offset, offset⟩⟩

def isEof (t : Token) : Bool := t.kind.isEof

/-- The source text that the token stands for. -/
def text (t : Token) : String := String.ofList (t.kind.enclose t.literal.toList)

end Token

end ScriptFrontend
