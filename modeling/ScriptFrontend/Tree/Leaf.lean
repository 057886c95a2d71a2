import ScriptFrontend.Number.Binary64
import ScriptFrontend.Number.Decimal
import ScriptFrontend.Text.Quoted
import ScriptFrontend.Token.Basic

/-!
# Leaves

A `Leaf` is a token with the value that it writes. There are five ways to get one from a token,
each for its own kind of token: a name or a string has its literal as value, a Boolean the
keyword's truth value, and a number is read from its literal, which can fail.
-/

namespace ScriptFrontend

structure Leaf (α : Type) where
  token : Token
  value : α

/-- What a token was expected to be. -/
inductive LeafSort where
  | identifier
  | integer
  | float
  | string
  | boolean
  deriving DecidableEq, Repr

def LeafSort.name : LeafSort → String
  | identifier => "identifier"
  | integer => "integer"
  | float => "float"
  | string => "string"
  | boolean => "boolean"

/-- Why a token gives no leaf. -/
inductive LiteralError where
  | unexpectedToken (expected : LeafSort) (found : TokenKind)
  | invalidInteger (literal : String) (fault : Number.IntegerFault)
  | invalidFloat (literal : String) (fault : Number.FloatFault)
  deriving DecidableEq, Repr

namespace LiteralError

def message : LiteralError → String
  | unexpectedToken expected found =>
    "expected " ++ expected.name ++ " token, found " ++ found.name
  | invalidInteger literal _ => "invalid integer literal " ++ Text.quote literal
  | invalidFloat literal _ => "invalid float literal " ++ Text.quote literal

/-- The fault of the number's text, where that is the cause. -/
def cause? : LiteralError → Option String
  | unexpectedToken _ _ => none
  | invalidInteger _ fault => some fault.message
  | invalidFloat _ fault => some fault.message

end LiteralError

namespace Leaf

def identifierOfToken (t : Token) : Except LiteralError (Leaf String) :=
  match t.kind with
  | .ident => .ok ⟨t, t.literal⟩
  | found => .error (.unexpectedToken .identifier found)

def integerOfToken (t : Token) : Except LiteralError (Leaf Int64) :=
  match t.kind with
  | .int =>
    match Number.readSigned64 t.literal with
    | .ok value => .ok ⟨t, value⟩
    | .error fault => .error (.invalidInteger t.literal fault)
  | found => .error (.unexpectedToken .integer found)

def floatOfToken (t : Token) : Except LiteralError (Leaf Number.Binary64) :=
  match t.kind with
  | .float =>
    match Number.readBinary64 t.literal with
    | .ok value => .ok ⟨t, value⟩
    | .error fault => .error (.invalidFloat t.literal fault)
  | found => .error (.unexpectedToken .float found)

/-- A string without its closing quote is taken all the same. -/
def stringOfToken (t : Token) : Except LiteralError (Leaf String) :=
  match t.kind with
  | .string _ => .ok ⟨t, t.literal⟩
  | found => .error (.unexpectedToken .string found)

/-- The keyword decides, whatever the literal says. -/
def booleanOfToken (t : Token) : Except LiteralError (Leaf Bool) :=
  match t.kind with
  | .keyword .trueKw => .ok ⟨t, true⟩
  | .keyword .falseKw => .ok ⟨t, false⟩
  | found => .error (.unexpectedToken .boolean found)

end Leaf

end ScriptFrontend
