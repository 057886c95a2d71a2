import ScriptFrontend.Tree.Basic

/-!
# Trees without their tokens

`forget` drops the token of every node and the place of every leaf. Shape, operators and names stay,
and so do the kinds, the literals and the values of the leaves.
-/

namespace ScriptFrontend

/-- The leaf with its token at no place in particular. -/
def Leaf.forget {α : Type} (leaf : Leaf α) : Leaf α :=
  ⟨⟨leaf.token.kind, leaf.token.literal, ⟨0, 0⟩⟩, leaf.value⟩

mutual

def Statement.forget : Statement → Statement
  | .var _ name value =>
    .var (.eof 0) name.forget (match value with | none => none | some e => some e.forget)
  | .ret _ value => .ret (.eof 0) (match value with | none => none | some e => some e.forget)
  | .expression _ body =>
    .expression (.eof 0) (match body with | none => none | some e => some e.forget)
  | .block body => .block body.forget

def Block.forget : Block → Block
  | .mk _ statements => .mk (.eof 0) (forgetStatements statements)

def Expression.forget : Expression → Expression
  | .identifier leaf => .identifier leaf.forget
  | .integer leaf => .integer leaf.forget
  | .float leaf => .float leaf.forget
  | .string leaf => .string leaf.forget
  | .boolean leaf => .boolean leaf.forget
  | .prefixOp _ operator right => .prefixOp (.eof 0) operator right.forget
  | .infixOp _ left operator right => .infixOp (.eof 0) left.forget operator right.forget
  | .ifElse _ condition consequence alternative =>
    .ifElse (.eof 0) condition.forget consequence.forget
      (match alternative with | none => none | some b => some b.forget)
  | .forLoop _ condition body => .forLoop (.eof 0) condition.forget body.forget
  | .function _ parameters body => .function (.eof 0) (parameters.map Leaf.forget) body.forget
  | .call _ callee arguments => .call (.eof 0) callee.forget (forgetExpressions arguments)
  | .array _ elements => .array (.eof 0) (forgetExpressions elements)
  | .hash _ pairs => .hash (.eof 0) (forgetPairs pairs)
  | .index _ left index => .index (.eof 0) left.forget index.forget

def forgetStatements : List Statement → List Statement
  | [] => []
  | s :: rest => s.forget :: forgetStatements rest

def forgetExpressions : List Expression → List Expression
  | [] => []
  | e :: rest => e.forget :: forgetExpressions rest

def forgetPairs : List (Expression × Expression) → List (Expression × Expression)
  | [] => []
  | (key, value) :: rest => (key.forget, value.forget) :: forgetPairs rest

end

def Program.forget (p : Program) : Program := ⟨p.statements.map Statement.forget⟩

theorem forgetExpressions_eq_map (l : List Expression) :
    forgetExpressions l = l.map Expression.forget := by
  induction l with
  | nil => simp [forgetExpressions]
  | cons e rest ih => simp [forgetExpressions, ih]

theorem forgetPairs_eq_map (l : List (Expression × Expression)) :
    forgetPairs l = l.map fun p => (p.1.forget, p.2.forget) := by
  induction l with
  | nil => simp [forgetPairs]
  | cons p rest ih => simp [forgetPairs, ih]

theorem Statement.forget_var (token : Token) (name : Leaf String) (value : Option Expression) :
    (var token name value).forget = var (.eof 0) name.forget (value.map Expression.forget) := by
  cases value <;> rfl

theorem Statement.forget_ret (token : Token) (value : Option Expression) :
    (ret token value).forget = ret (.eof 0) (value.map Expression.forget) := by
  cases value <;> rfl

end ScriptFrontend
