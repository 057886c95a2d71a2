import ScriptFrontend.Proofs.Tree.Relabeling
import ScriptFrontend.Tree.Nodes

/-!
# Nodes of a relabeled tree

Relabeling keeps the shape of a tree, so its nodes are those of the tree, relabeled
(`Tree.nodes_relabel`).
-/

namespace ScriptFrontend

variable (r : Relabeling)

theorem map_node_identifier (parameters : List (Leaf String)) :
    (parameters.map r.identifier).map Leaf.node =
      (parameters.map Leaf.node).map (Tree.relabel r) := by
  rw [List.map_map, List.map_map]
  rfl

mutual

theorem Statement.nodes_relabel :
    (s : Statement) → (s.relabel r).nodes = s.nodes.map (Tree.relabel r)
  | .var token name none => rfl
  | .var token name (some e) => by
    simp [Statement.relabel, Statement.nodes, Tree.relabel, Leaf.node, Expression.relabel,
      e.nodes_relabel]
  | .ret token none => rfl
  | .ret token (some e) => by
    simp [Statement.relabel, Statement.nodes, Tree.relabel, e.nodes_relabel]
  | .expression token none => rfl
  | .expression token (some e) => by
    simp [Statement.relabel, Statement.nodes, Tree.relabel, e.nodes_relabel]
  | .block body => body.nodes_relabel

theorem Block.nodes_relabel : (b : Block) → (b.relabel r).nodes = b.nodes.map (Tree.relabel r)
  | .mk token statements => by
    simp [Block.relabel, Block.nodes, Tree.relabel, Statement.relabel,
      statementNodes_relabel statements]

theorem Expression.nodes_relabel :
    (e : Expression) → (e.relabel r).nodes = e.nodes.map (Tree.relabel r)
  | .identifier leaf => rfl
  | .integer leaf => rfl
  | .float leaf => rfl
  | .string leaf => rfl
  | .boolean leaf => rfl
  | .prefixOp token operator right => by
    simp [Expression.relabel, Expression.nodes, Tree.relabel, right.nodes_relabel]
  | .infixOp token left operator right => by
    simp [Expression.relabel, Expression.nodes, Tree.relabel, left.nodes_relabel,
      right.nodes_relabel]
  | .ifElse token condition consequence none => by
    simp [Expression.relabel, Expression.nodes, Tree.relabel, condition.nodes_relabel,
      consequence.nodes_relabel]
  | .ifElse token condition consequence (some b) => by
    simp [Expression.relabel, Expression.nodes, Tree.relabel, condition.nodes_relabel,
      consequence.nodes_relabel, b.nodes_relabel]
  | .forLoop token condition body => by
    simp [Expression.relabel, Expression.nodes, Tree.relabel, condition.nodes_relabel,
      body.nodes_relabel]
  | .function token parameters body => by
    rw [Expression.relabel, Expression.nodes, Expression.nodes, map_node_identifier,
      body.nodes_relabel, List.map_append, List.map_append]
    rfl
  | .call token callee arguments => by
    simp [Expression.relabel, Expression.nodes, Tree.relabel, callee.nodes_relabel,
      expressionNodes_relabel arguments]
  | .array token elements => by
    simp [Expression.relabel, Expression.nodes, Tree.relabel, expressionNodes_relabel elements]
  | .hash token pairs => by
    simp [Expression.relabel, Expression.nodes, Tree.relabel, pairNodes_relabel pairs]
  | .index token left index => by
    simp [Expression.relabel, Expression.nodes, Tree.relabel, left.nodes_relabel,
      index.nodes_relabel]

theorem statementNodes_relabel : (l : List Statement) →
    statementNodes (relabelStatements r l) = (statementNodes l).map (Tree.relabel r)
  | [] => rfl
  | s :: rest => by
    simp [relabelStatements, statementNodes, s.nodes_relabel, statementNodes_relabel rest]

theorem expressionNodes_relabel : (l : List Expression) →
    expressionNodes (relabelExpressions r l) = (expressionNodes l).map (Tree.relabel r)
  | [] => rfl
  | e :: rest => by
    simp [relabelExpressions, expressionNodes, e.nodes_relabel, expressionNodes_relabel rest]

theorem pairNodes_relabel : (l : List (Expression × Expression)) →
    pairNodes (relabelPairs r l) = (pairNodes l).map (Tree.relabel r)
  | [] => rfl
  | (key, value) :: rest => by
    simp [relabelPairs, pairNodes, key.nodes_relabel, value.nodes_relabel, pairNodes_relabel rest]

end

theorem relabelStatements_eq_map (l : List Statement) :
    relabelStatements r l = l.map (Statement.relabel r) := by
  induction l with
  | nil => rfl
  | cons s rest ih => rw [relabelStatements, ih, List.map_cons]

theorem Tree.nodes_relabel (t : Tree) : (t.relabel r).nodes = t.nodes.map (Tree.relabel r) := by
  cases t with
  | program p =>
    rw [Tree.nodes, List.map_append, ← statementNodes_relabel, relabelStatements_eq_map]
    rfl
  | statement s => exact s.nodes_relabel r
  | expression e => exact e.nodes_relabel r

end ScriptFrontend
