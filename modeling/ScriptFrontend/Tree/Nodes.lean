import ScriptFrontend.Tree.Basic

/-!
# The nodes of a tree

`Tree.nodes` lists a tree's nodes as trees of their own, children before their parent and in the
order in which the parent holds them, so that the tree itself comes last. The names of
declarations and functions count as identifier nodes.
-/

namespace ScriptFrontend

def Leaf.node (name : Leaf String) : Tree := .expression (.identifier name)

mutual

def Statement.nodes : Statement → List Tree
  | .var token name value =>
    name.node :: (match value with | none => [] | some e => e.nodes) ++
      [.statement (.var token name value)]
  | .ret token value =>
    (match value with | none => [] | some e => e.nodes) ++ [.statement (.ret token value)]
  | .expression token body =>
    (match body with | none => [] | some e => e.nodes) ++ [.statement (.expression token body)]
  | .block body => body.nodes

def Block.nodes : Block → List Tree
  | .mk token statements =>
    statementNodes statements ++ [.statement (.block (.mk token statements))]

def Expression.nodes : Expression → List Tree
  | .identifier leaf => [.expression (.identifier leaf)]
  | .integer leaf => [.expression (.integer leaf)]
  | .float leaf => [.expression (.float leaf)]
  | .string leaf => [.expression (.string leaf)]
  | .boolean leaf => [.expression (.boolean leaf)]
  | .prefixOp token operator right =>
    right.nodes ++ [.expression (.prefixOp token operator right)]
  | .infixOp token left operator right =>
    left.nodes ++ right.nodes ++ [.expression (.infixOp token left operator right)]
  | .ifElse token condition consequence alternative =>
    condition.nodes ++ consequence.nodes ++
      (match alternative with | none => [] | some b => b.nodes) ++
      [.expression (.ifElse token condition consequence alternative)]
  | .forLoop token condition body =>
    condition.nodes ++ body.nodes ++ [.expression (.forLoop token condition body)]
  | .function token parameters body =>
    parameters.map Leaf.node ++ body.nodes ++ [.expression (.function token parameters body)]
  | .call token callee arguments =>
    callee.nodes ++ expressionNodes arguments ++ [.expression (.call token callee arguments)]
  | .array token elements => expressionNodes elements ++ [.expression (.array token elements)]
  | .hash token pairs => pairNodes pairs ++ [.expression (.hash token pairs)]
  | .index token left index =>
    left.nodes ++ index.nodes ++ [.expression (.index token left index)]

def statementNodes : List Statement → List Tree
  | [] => []
  | s :: rest => s.nodes ++ statementNodes rest

def expressionNodes : List Expression → List Tree
  | [] => []
  | e :: rest => e.nodes ++ expressionNodes rest

def pairNodes : List (Expression × Expression) → List Tree
  | [] => []
  | (key, value) :: rest => key.nodes ++ value.nodes ++ pairNodes rest

end

def Tree.nodes : Tree → List Tree
  | program p => statementNodes p.statements ++ [.program p]
  | statement s => s.nodes
  | expression e => e.nodes

end ScriptFrontend
