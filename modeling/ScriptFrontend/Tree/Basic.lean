import ScriptFrontend.Tree.Leaf

/-!
# Trees

A program is a list of statements, and statements and expressions hold one another. Every node
keeps the token that introduced it. A prefix or infix node names its operator beside its token,
and nothing forces the two to agree; the same goes for the token and the value of a leaf.
-/

namespace ScriptFrontend

mutual

inductive Statement where
  | var (token : Token) (name : Leaf String) (value : Option Expression)
  | ret (token : Token) (value : Option Expression)
  | expression (token : Token) (body : Option Expression)
  | block (body : Block)

inductive Block where
  | mk (token : Token) (statements : List Statement)

inductive Expression where
  | identifier (leaf : Leaf String)
  | integer (leaf : Leaf Int64)
  | float (leaf : Leaf Number.Binary64)
  | string (leaf : Leaf String)
  | boolean (leaf : Leaf Bool)
  | prefixOp (token : Token) (operator : Operator) (right : Expression)
  | infixOp (token : Token) (left : Expression) (operator : Operator) (right : Expression)
  | ifElse (token : Token) (condition : Expression) (consequence : Block)
      (alternative : Option Block)
  | forLoop (token : Token) (condition : Expression) (body : Block)
  | function (token : Token) (parameters : List (Leaf String)) (body : Block)
  | call (token : Token) (callee : Expression) (arguments : List Expression)
  | array (token : Token) (elements : List Expression)
  | hash (token : Token) (pairs : List (Expression × Expression))
  | index (token : Token) (left : Expression) (index : Expression)

end

structure Program where
  statements : List Statement

/-- A program, or a statement or expression by itself. -/
inductive Tree where
  | program (p : Program)
  | statement (s : Statement)
  | expression (e : Expression)

def Block.token : Block → Token
  | mk token _ => token

def Statement.token : Statement → Token
  | var token _ _ | ret token _ | expression token _ => token
  | block body => body.token

def Expression.token : Expression → Token
  | identifier leaf => leaf.token
  | integer leaf => leaf.token
  | float leaf => leaf.token
  | string leaf => leaf.token
  | boolean leaf => leaf.token
  | prefixOp token _ _ | infixOp token _ _ _ | ifElse token _ _ _ | forLoop token _ _
  | function token _ _ | call token _ _ | array token _ | hash token _ | index token _ _ => token

/-- A program has the literal of its first statement, if there is one. -/
def Program.tokenLiteral (p : Program) : String :=
  match p.statements with
  | [] => ""
  | s :: _ => s.token.literal

namespace Tree

/-- The token that introduced the tree; a program has none. -/
def token? : Tree → Option Token
  | program _ => none
  | statement s => some s.token
  | expression e => some e.token

def tokenLiteral : Tree → String
  | program p => p.tokenLiteral
  | statement s => s.token.literal
  | expression e => e.token.literal

end Tree

end ScriptFrontend
