import ScriptFrontend.Tree.Basic

/-!
# Structural equality

Two trees are equal when they have the same shape, the same tokens with their spans, the same
operators and the same leaf values. Floats compare as numbers, so a tree that holds a NaN is not
even equal to itself, and the two zeros do not tell trees apart.
-/

namespace ScriptFrontend

/-- Leaves are equal when their tokens are and `same` holds of their values. -/
def Leaf.equalBy {α : Type} (same : α → α → Bool) (a b : Leaf α) : Bool :=
  a.token == b.token && same a.value b.value

def equalLeaves : List (Leaf String) → List (Leaf String) → Bool
  | [], [] => true
  | a :: as, b :: bs => a.equalBy (· == ·) b && equalLeaves as bs
  | _, _ => false

mutual

def Statement.equal : Statement → Statement → Bool
  | .var t n v, .var t' n' v' =>
    t == t' && n.equalBy (· == ·) n' &&
      (match v, v' with
      | none, none => true
      | some e, some e' => e.equal e'
      | _, _ => false)
  | .ret t v, .ret t' v' =>
    t == t' &&
      (match v, v' with
      | none, none => true
      | some e, some e' => e.equal e'
      | _, _ => false)
  | .expression t v, .expression t' v' =>
    t == t' &&
      (match v, v' with
      | none, none => true
      | some e, some e' => e.equal e'
      | _, _ => false)
  | .block b, .block b' => b.equal b'
  | _, _ => false

def Block.equal : Block → Block → Bool
  | .mk t ss, .mk t' ss' => t == t' && equalStatements ss ss'

def Expression.equal : Expression → Expression → Bool
  | .identifier l, .identifier l' => l.equalBy (· == ·) l'
  | .integer l, .integer l' => l.equalBy (· == ·) l'
  | .float l, .float l' => l.equalBy Number.Binary64.equal l'
  | .string l, .string l' => l.equalBy (· == ·) l'
  | .boolean l, .boolean l' => l.equalBy (· == ·) l'
  | .prefixOp t o r, .prefixOp t' o' r' => t == t' && o == o' && r.equal r'
  | .infixOp t l o r, .infixOp t' l' o' r' => t == t' && l.equal l' && o == o' && r.equal r'
  | .ifElse t c b a, .ifElse t' c' b' a' =>
    t == t' && c.equal c' && b.equal b' &&
      (match a, a' with
      | none, none => true
      | some e, some e' => e.equal e'
      | _, _ => false)
  | .forLoop t c b, .forLoop t' c' b' => t == t' && c.equal c' && b.equal b'
  | .function t ps b, .function t' ps' b' => t == t' && equalLeaves ps ps' && b.equal b'
  | .call t f as, .call t' f' as' => t == t' && f.equal f' && equalExpressions as as'
  | .array t as, .array t' as' => t == t' && equalExpressions as as'
  | .hash t ps, .hash t' ps' => t == t' && equalPairs ps ps'
  | .index t l i, .index t' l' i' => t == t' && l.equal l' && i.equal i'
  | _, _ => false

def equalStatements : List Statement → List Statement → Bool
  | [], [] => true
  | s :: ss, s' :: ss' => s.equal s' && equalStatements ss ss'
  | _, _ => false

def equalExpressions : List Expression → List Expression → Bool
  | [], [] => true
  | e :: es, e' :: es' => e.equal e' && equalExpressions es es'
  | _, _ => false

def equalPairs : List (Expression × Expression) → List (Expression × Expression) → Bool
  | [], [] => true
  | (k, v) :: ps, (k', v') :: ps' => k.equal k' && v.equal v' && equalPairs ps ps'
  | _, _ => false

end

def Program.equal (p q : Program) : Bool := equalStatements p.statements q.statements

/-- Trees of different sorts are never equal. -/
def Tree.equal : Tree → Tree → Bool
  | program p, program q => p.equal q
  | statement s, statement s' => s.equal s'
  | expression e, expression e' => e.equal e'
  | _, _ => false

end ScriptFrontend
