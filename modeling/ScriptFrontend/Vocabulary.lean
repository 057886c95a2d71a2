/-!
# The vocabulary

The fixed words and symbols of the language. Each carries the version that introduced it (`Version`)
and how settled it is (`Stability`).

- A `Keyword` has one canonical spelling and possibly aliases; `Keyword.ofSpelling?` finds the
  keyword that claims a spelling.
- An `Operator` has a binding strength (`Precedence`) and places where it may stand (`Fixity`).
  Assignment is an operator symbol that stands in no expression.
- A mark of `Punctuation` separates or encloses, and is spelled by one character.
-/

namespace ScriptFrontend

/-! ## Versions and stability -/

/-- A language version. -/
structure Version where
  major : Nat
  minor : Nat
  deriving DecidableEq, Repr

namespace Version

/-- The major numbers decide; the minor ones only where those agree. -/
def compare (a b : Version) : Ordering :=
  (Ord.compare a.major b.major).then (Ord.compare a.minor b.minor)

instance : Ord Version := ⟨Version.compare⟩

def text (v : Version) : String := v.major.repr ++ "." ++ v.minor.repr

/-- The first version of the language. -/
def first : Version := ⟨0, 1⟩

end Version

/-- How settled a word or symbol of the language is. -/
inductive Stability where
  | stable
  | draft
  | deprecated
  deriving DecidableEq, Repr

def Stability.name : Stability → String
  | stable => "Stable"
  | draft => "Draft"
  | deprecated => "Deprecated"

/-! ## Keywords -/

inductive Keyword where
  | ifKw
  | elseKw
  | forKw
  | returnKw
  | fnKw
  | varKw
  | trueKw
  | falseKw
  deriving DecidableEq, Repr

namespace Keyword

/-- What a keyword is for. -/
inductive Category where
  | controlFlow
  | definition
  | binding
  | literal
  deriving DecidableEq, Repr

def Category.name : Category → String
  | controlFlow => "ControlFlow"
  | definition => "Definition"
  | binding => "Binding"
  | literal => "Literal"

def all : List Keyword :=
  [ifKw, elseKw, forKw, returnKw, fnKw, varKw, trueKw, falseKw]

theorem mem_all (k : Keyword) : k ∈ all := by cases k <;> decide

/-- The name by which messages call the keyword. -/
def name : Keyword → String
  | ifKw => "If"
  | elseKw => "Else"
  | forKw => "For"
  | returnKw => "Return"
  | fnKw => "Fn"
  | varKw => "Var"
  | trueKw => "True"
  | falseKw => "False"

/-- The canonical spelling. -/
def spelling : Keyword → String
  | ifKw => "if"
  | elseKw => "else"
  | forKw => "for"
  | returnKw => "return"
  | fnKw => "fn"
  | varKw => "var"
  | trueKw => "true"
  | falseKw => "false"

/-- Further spellings of the same keyword. -/
def aliases : Keyword → List String
  | fnKw => ["function"]
  | _ => []

def category : Keyword → Category
  | ifKw | elseKw | forKw | returnKw => .controlFlow
  | fnKw => .definition
  | varKw => .binding
  | trueKw | falseKw => .literal

def since (_ : Keyword) : Version := .first

def stability (_ : Keyword) : Stability := .stable

/-- A canonical spelling is looked for before an alias; case matters. -/
def ofSpelling? (s : String) : Option Keyword :=
  (all.find? fun k => k.spelling == s) <|> all.find? fun k => k.aliases.contains s

end Keyword

/-! ## Operators -/

/-- Binding strength, from the weakest to the strongest. -/
inductive Precedence where
  | lowest
  | equals
  | lessGreater
  | sum
  | product
  | prefixOp
  | call
  | index
  deriving DecidableEq, Repr

namespace Precedence

def all : List Precedence :=
  [lowest, equals, lessGreater, sum, product, prefixOp, call, index]

def name : Precedence → String
  | lowest => "Lowest"
  | equals => "Equals"
  | lessGreater => "LessGreater"
  | sum => "Sum"
  | product => "Product"
  | prefixOp => "Prefix"
  | call => "Call"
  | index => "Index"

/-- The position on the ladder. -/
def rank : Precedence → Nat
  | lowest => 0
  | equals => 1
  | lessGreater => 2
  | sum => 3
  | product => 4
  | prefixOp => 5
  | call => 6
  | index => 7

def compare (a b : Precedence) : Ordering := Ord.compare a.rank b.rank

instance : Ord Precedence := ⟨Precedence.compare⟩

end Precedence

/-- A place where an operator may stand. -/
inductive Fixity where
  | beforeOperand
  | betweenOperands
  deriving DecidableEq, Repr

def Fixity.name : Fixity → String
  | beforeOperand => "Prefix"
  | betweenOperands => "Infix"

inductive Operator where
  | plus
  | minus
  | star
  | slash
  | bang
  | equal
  | notEqual
  | less
  | greater
  | assign
  deriving DecidableEq, Repr

namespace Operator

def all : List Operator :=
  [plus, minus, star, slash, bang, equal, notEqual, less, greater, assign]

theorem mem_all (o : Operator) : o ∈ all := by cases o <;> decide

/-- The name by which messages call the operator. -/
def name : Operator → String
  | plus => "Plus"
  | minus => "Minus"
  | star => "Star"
  | slash => "Slash"
  | bang => "Bang"
  | equal => "EqEq"
  | notEqual => "NotEq"
  | less => "Lt"
  | greater => "Gt"
  | assign => "Assign"

def spelling : Operator → String
  | plus => "+"
  | minus => "-"
  | star => "*"
  | slash => "/"
  | bang => "!"
  | equal => "=="
  | notEqual => "!="
  | less => "<"
  | greater => ">"
  | assign => "="

def precedence : Operator → Precedence
  | plus | minus => .sum
  | star | slash => .product
  | bang => .prefixOp
  | equal | notEqual => .equals
  | less | greater => .lessGreater
  | assign => .lowest

def fixity : Operator → List Fixity
  | minus => [.beforeOperand, .betweenOperands]
  | bang => [.beforeOperand]
  | assign => []
  | _ => [.betweenOperands]

/-- May stand before its only operand. -/
def standsBefore (o : Operator) : Bool := o.fixity.contains .beforeOperand

/-- May stand between two operands. -/
def standsBetween (o : Operator) : Bool := o.fixity.contains .betweenOperands

def since (_ : Operator) : Version := .first

def stability (_ : Operator) : Stability := .stable

def ofSpelling? (s : String) : Option Operator := all.find? fun o => o.spelling == s

end Operator

/-! ## Punctuation -/

inductive Punctuation where
  | comma
  | semicolon
  | colon
  | openParen
  | closeParen
  | openBrace
  | closeBrace
  | openBracket
  | closeBracket
  deriving DecidableEq, Repr

namespace Punctuation

/-- What a mark is for. -/
inductive Category where
  | separator
  | delimiter
  deriving DecidableEq, Repr

def Category.name : Category → String
  | separator => "Separator"
  | delimiter => "Delimiter"

def all : List Punctuation :=
  [comma, semicolon, colon, openParen, closeParen, openBrace, closeBrace, openBracket,
    closeBracket]

theorem mem_all (p : Punctuation) : p ∈ all := by cases p <;> decide

/-- The name by which messages call the mark. -/
def name : Punctuation → String
  | comma => "Comma"
  | semicolon => "Semicolon"
  | colon => "Colon"
  | openParen => "LParen"
  | closeParen => "RParen"
  | openBrace => "LBrace"
  | closeBrace => "RBrace"
  | openBracket => "LBracket"
  | closeBracket => "RBracket"

def spelling : Punctuation → String
  | comma => ","
  | semicolon => ";"
  | colon => ":"
  | openParen => "("
  | closeParen => ")"
  | openBrace => "\x7b"
  | closeBrace => "\x7d"
  | openBracket => "["
  | closeBracket => "]"

def category : Punctuation → Category
  | comma | semicolon | colon => .separator
  | _ => .delimiter

def since (_ : Punctuation) : Version := .first

def stability (_ : Punctuation) : Stability := .stable

def ofSpelling? (s : String) : Option Punctuation := all.find? fun p => p.spelling == s

end Punctuation

end ScriptFrontend
