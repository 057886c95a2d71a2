import ScriptFrontend.Tree.Basic

/-!
# Rendering

The text of a tree, with every operator application in parentheses and fixed spacing. Only names,
operators and the literals of leaves and of the words that begin declarations, returns and
functions are read: the other tokens do not show, strings stand without their quotes, and blocks
without their braces.
-/

namespace ScriptFrontend

mutual

def Statement.render : Statement → String
  | .var token name value =>
    token.literal ++ " " ++ name.value ++ " = " ++
      (match value with | none => "" | some e => e.render) ++ ";"
  | .ret token value =>
    token.literal ++ " " ++ (match value with | none => "" | some e => e.render) ++ ";"
  | .expression _ body => match body with | none => "" | some e => e.render
  | .block body => body.render

def Block.render : Block → String
  | .mk _ statements => String.join (renderStatements statements)

def Expression.render : Expression → String
  | .identifier leaf => leaf.value
  | .integer leaf => leaf.token.literal
  | .float leaf => leaf.token.literal
  | .string leaf => leaf.token.literal
  | .boolean leaf => leaf.token.literal
  | .prefixOp _ operator right => "(" ++ operator.spelling ++ right.render ++ ")"
  | .infixOp _ left operator right =>
    "(" ++ left.render ++ " " ++ operator.spelling ++ " " ++ right.render ++ ")"
  | .ifElse _ condition consequence alternative =>
    "if" ++ condition.render ++ " " ++ consequence.render ++
      (match alternative with | none => "" | some b => "else " ++ b.render)
  | .forLoop _ condition body => "for" ++ condition.render ++ " " ++ body.render
  | .function token parameters body =>
    token.literal ++ "(" ++ ", ".intercalate (parameters.map Leaf.value) ++ ")" ++ body.render
  | .call _ callee arguments =>
    callee.render ++ "(" ++ ", ".intercalate (renderExpressions arguments) ++ ")"
  | .array _ elements => "[" ++ ", ".intercalate (renderExpressions elements) ++ "]"
  | .hash _ pairs => "\x7b" ++ ", ".intercalate (renderPairs pairs) ++ "\x7d"
  | .index _ left index => "(" ++ left.render ++ "[" ++ index.render ++ "])"

def renderStatements : List Statement → List String
  | [] => []
  | s :: rest => s.render :: renderStatements rest

def renderExpressions : List Expression → List String
  | [] => []
  | e :: rest => e.render :: renderExpressions rest

def renderPairs : List (Expression × Expression) → List String
  | [] => []
  | (key, value) :: rest => (key.render ++ ":" ++ value.render) :: renderPairs rest

end

theorem renderStatements_eq_map (l : List Statement) :
    renderStatements l = l.map Statement.render := by
  induction l with
  | nil => simp [renderStatements]
  | cons s rest ih => simp [renderStatements, ih]

theorem renderExpressions_eq_map (l : List Expression) :
    renderExpressions l = l.map Expression.render := by
  induction l with
  | nil => simp [renderExpressions]
  | cons e rest ih => simp [renderExpressions, ih]

theorem renderPairs_eq_map (l : List (Expression × Expression)) :
    renderPairs l = l.map fun p => p.1.render ++ ":" ++ p.2.render := by
  induction l with
  | nil => simp [renderPairs]
  | cons p rest ih => simp [renderPairs, ih]

def Program.render (p : Program) : String := String.join (p.statements.map Statement.render)

def Tree.render : Tree → String
  | program p => p.render
  | statement s => s.render
  | expression e => e.render

end ScriptFrontend
