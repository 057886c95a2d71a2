import Mathlib.Data.List.Forall2
import ScriptFrontend.Proofs.Diagnostic.Fault
import ScriptFrontend.Proofs.Number.SameNumber
import ScriptFrontend.Proofs.Tree.Leaves
import ScriptFrontend.Proofs.Tree.RelabeledNodes
import ScriptFrontend.Tree.Equality

/-!
# Equality of trees

Two trees are equal when no float in them holds a NaN and, the signs of zeros apart, they are one
tree (`Tree.equal_iff`). So equality is symmetric and transitive, and a tree that is not equal to
itself has a NaN somewhere. What is equal agrees node by node: `Alike` says how. A tree whose floats
were read from tokens of a source has no NaN (`isNaN_of_floatOfToken`).
-/

namespace ScriptFrontend

/-- Keeps all of a tree but the signs of its zeros. -/
def Relabeling.unsigned : Relabeling where
  node t := t
  word t := t
  identifier leaf := leaf
  integer leaf := leaf
  float leaf := ⟨leaf.token, leaf.value.unsignZero⟩
  string leaf := leaf
  boolean leaf := leaf

open Relabeling (unsigned)

/-- The leaf of a node that is a float. -/
def Tree.float? : Tree → Option (Leaf Number.Binary64)
  | expression (.float leaf) => some leaf
  | _ => none

/-- The floats of a tree, in the order of its nodes. -/
def Tree.floats (t : Tree) : List (Leaf Number.Binary64) := t.nodes.filterMap Tree.float?

/-- What equal trees have in common. -/
structure Alike (a b : Tree) : Prop where
  /-- Shape, operators, names, tokens and values are the same, but for the signs of zeros. -/
  relabel_eq : a.relabel unsigned = b.relabel unsigned
  /-- Node by node the tokens have the same kind, literal and place. -/
  tokens_eq : a.nodes.map Tree.token? = b.nodes.map Tree.token?
  /-- Float by float the values are the same number. -/
  floats : List.Forall₂ (fun x y => x.value.equal y.value = true) a.floats b.floats

/-! ## Floats of relabeled trees -/

theorem Tree.float?_relabel (r : Relabeling) (t : Tree) :
    (t.relabel r).float? = t.float?.map r.float := by
  cases t with
  | expression e =>
    cases e with
    | ifElse _ _ _ alternative => cases alternative <;> rfl
    | _ => rfl
  | _ => rfl

theorem Tree.floats_relabel (r : Relabeling) (t : Tree) :
    (t.relabel r).floats = t.floats.map r.float := by
  rw [floats, nodes_relabel, List.filterMap_map, floats, List.map_filterMap]
  exact List.filterMap_congr fun n _ => n.float?_relabel r

theorem Block.token_unsigned (b : Block) : (b.relabel unsigned).token = b.token := by
  cases b
  rfl

theorem Tree.token?_unsigned (t : Tree) : (t.relabel unsigned).token? = t.token? := by
  cases t with
  | program p => rfl
  | statement s =>
    cases s with
    | var _ _ value => cases value <;> rfl
    | ret _ value => cases value <;> rfl
    | expression _ body => cases body <;> rfl
    | block body => exact congrArg some body.token_unsigned
  | expression e =>
    cases e with
    | ifElse _ _ _ alternative => cases alternative <;> rfl
    | _ => rfl

/-! ## Nodes without a NaN -/

/-- No float among the nodes holds a NaN. -/
def Numbers (nodes : List Tree) : Prop :=
  ∀ leaf ∈ nodes.filterMap Tree.float?, leaf.value.isNaN = false

@[simp] theorem numbers_append {ns ms : List Tree} :
    Numbers (ns ++ ms) ↔ Numbers ns ∧ Numbers ms := by
  rw [Numbers, List.filterMap_append, List.forall_mem_append]
  rfl

@[simp] theorem numbers_nil : Numbers [] := nofun

@[simp] theorem numbers_statement (s : Statement) : Numbers [.statement s] := nofun

@[simp] theorem numbers_program (p : Program) : Numbers [.program p] := nofun

@[simp] theorem numbers_expression (e : Expression) :
    Numbers [.expression e] ↔ ∀ leaf, .float leaf = e → leaf.value.isNaN = false := by
  cases e <;> simp [Numbers, Tree.float?]

@[simp] theorem numbers_node_cons (name : Leaf String) (ns : List Tree) :
    Numbers (name.node :: ns) ↔ Numbers ns := Iff.rfl

@[simp] theorem numbers_parameters (parameters : List (Leaf String)) :
    Numbers (parameters.map Leaf.node) := by
  induction parameters with
  | nil => exact numbers_nil
  | cons p parameters ih => exact ih

/-! ## Leaves -/

@[simp] theorem unsigned_node (t : Token) : unsigned.node t = t := rfl

@[simp] theorem unsigned_word (t : Token) : unsigned.word t = t := rfl

@[simp] theorem unsigned_identifier (leaf : Leaf String) : unsigned.identifier leaf = leaf := rfl

@[simp] theorem unsigned_integer (leaf : Leaf Int64) : unsigned.integer leaf = leaf := rfl

@[simp] theorem unsigned_string (leaf : Leaf String) : unsigned.string leaf = leaf := rfl

@[simp] theorem unsigned_boolean (leaf : Leaf Bool) : unsigned.boolean leaf = leaf := rfl

@[simp] theorem map_identifier_unsigned (parameters : List (Leaf String)) :
    parameters.map unsigned.identifier = parameters := List.map_id _

theorem Leaf.equalBy_eq_iff {α : Type} [BEq α] [LawfulBEq α] {a b : Leaf α} :
    a.equalBy (· == ·) b = true ↔ a = b := by
  obtain ⟨t, v⟩ := a
  obtain ⟨t', v'⟩ := b
  simp [equalBy]

theorem Leaf.equalBy_float_iff {a b : Leaf Number.Binary64} :
    a.equalBy Number.Binary64.equal b = true ↔
      (a.value.isNaN = false ∧ b.value.isNaN = false) ∧ unsigned.float a = unsigned.float b := by
  simp only [equalBy, Bool.and_eq_true, beq_iff_eq, Number.Binary64.equal_iff, unsigned,
    Leaf.mk.injEq, and_assoc, and_left_comm]

theorem equalLeaves_iff {as bs : List (Leaf String)} : equalLeaves as bs = true ↔ as = bs := by
  induction as generalizing bs with
  | nil => cases bs <;> simp [equalLeaves]
  | cons a as ih => cases bs <;> simp [equalLeaves, ih, Leaf.equalBy_eq_iff]

/-! ## Different constructors

What begins with different constructors is not equal, and relabeling keeps the constructor. -/

theorem Statement.ctorIdx_relabel (r : Relabeling) (s : Statement) :
    (s.relabel r).ctorIdx = s.ctorIdx := by
  cases s with
  | var _ _ value => cases value <;> rfl
  | ret _ value => cases value <;> rfl
  | expression _ body => cases body <;> rfl
  | block body => rfl

theorem Expression.ctorIdx_relabel (r : Relabeling) (e : Expression) :
    (e.relabel r).ctorIdx = e.ctorIdx := by
  cases e with
  | ifElse _ _ _ alternative => cases alternative <;> rfl
  | _ => rfl

theorem Statement.equal_of_ctorIdx_ne {s s' : Statement} (h : s.ctorIdx ≠ s'.ctorIdx) :
    s.equal s' = false := by
  rw [Statement.equal] <;> (intros; subst_vars; exact h rfl)

theorem Expression.equal_of_ctorIdx_ne {e e' : Expression} (h : e.ctorIdx ≠ e'.ctorIdx) :
    e.equal e' = false := by
  rw [Expression.equal] <;> (intros; subst_vars; exact h rfl)

theorem Statement.equal_iff_of_ctorIdx_ne {s s' : Statement} {p : Prop}
    (h : s.ctorIdx ≠ s'.ctorIdx) :
    s.equal s' = true ↔ p ∧ s.relabel unsigned = s'.relabel unsigned := by
  refine iff_of_false (ne_true_of_eq_false (equal_of_ctorIdx_ne h)) fun ⟨_, heq⟩ => h ?_
  rw [← s.ctorIdx_relabel unsigned, heq, s'.ctorIdx_relabel]

theorem Expression.equal_iff_of_ctorIdx_ne {e e' : Expression} {p : Prop}
    (h : e.ctorIdx ≠ e'.ctorIdx) :
    e.equal e' = true ↔ p ∧ e.relabel unsigned = e'.relabel unsigned := by
  refine iff_of_false (ne_true_of_eq_false (equal_of_ctorIdx_ne h)) fun ⟨_, heq⟩ => h ?_
  rw [← e.ctorIdx_relabel unsigned, heq, e'.ctorIdx_relabel]

/-! ## Equality as agreement

One case for each constructor on the left. On the right only the same constructor is of interest;
there both sides fall apart into the same parts. -/

mutual

theorem Statement.equal_iff : ∀ s s' : Statement, s.equal s' = true ↔
    (Numbers s.nodes ∧ Numbers s'.nodes) ∧ s.relabel unsigned = s'.relabel unsigned
  | .var token name none, s' => by
    cases s' with
    | var token' name' value' =>
      cases value' with
      | none => simp [Statement.equal, Statement.nodes, Statement.relabel, Leaf.equalBy_eq_iff]
      | some e' => simp [Statement.equal, Statement.relabel]
    | _ => exact Statement.equal_iff_of_ctorIdx_ne nofun
  | .var token name (some e), s' => by
    cases s' with
    | var token' name' value' =>
      cases value' with
      | none => simp [Statement.equal, Statement.relabel]
      | some e' =>
        simp [Statement.equal, Statement.nodes, Statement.relabel, Leaf.equalBy_eq_iff,
          e.equal_iff e', and_assoc, and_left_comm]
    | _ => exact Statement.equal_iff_of_ctorIdx_ne nofun
  | .ret token none, s' => by
    cases s' with
    | ret token' value' =>
      cases value' with
      | none => simp [Statement.equal, Statement.nodes, Statement.relabel]
      | some e' => simp [Statement.equal, Statement.relabel]
    | _ => exact Statement.equal_iff_of_ctorIdx_ne nofun
  | .ret token (some e), s' => by
    cases s' with
    | ret token' value' =>
      cases value' with
      | none => simp [Statement.equal, Statement.relabel]
      | some e' =>
        simp [Statement.equal, Statement.nodes, Statement.relabel, e.equal_iff e', and_assoc,
          and_left_comm]
    | _ => exact Statement.equal_iff_of_ctorIdx_ne nofun
  | .expression token none, s' => by
    cases s' with
    | expression token' body' =>
      cases body' with
      | none => simp [Statement.equal, Statement.nodes, Statement.relabel]
      | some e' => simp [Statement.equal, Statement.relabel]
    | _ => exact Statement.equal_iff_of_ctorIdx_ne nofun
  | .expression token (some e), s' => by
    cases s' with
    | expression token' body' =>
      cases body' with
      | none => simp [Statement.equal, Statement.relabel]
      | some e' =>
        simp [Statement.equal, Statement.nodes, Statement.relabel, e.equal_iff e', and_assoc,
          and_left_comm]
    | _ => exact Statement.equal_iff_of_ctorIdx_ne nofun
  | .block body, s' => by
    cases s' with
    | block body' =>
      simp [Statement.equal, Statement.nodes, Statement.relabel, body.equal_iff body']
    | _ => exact Statement.equal_iff_of_ctorIdx_ne nofun

theorem Block.equal_iff : ∀ b b' : Block, b.equal b' = true ↔
    (Numbers b.nodes ∧ Numbers b'.nodes) ∧ b.relabel unsigned = b'.relabel unsigned
  | .mk token statements, .mk token' statements' => by
    simp [Block.equal, Block.nodes, Block.relabel, equalStatements_iff statements statements',
      and_left_comm]

theorem Expression.equal_iff : ∀ e e' : Expression, e.equal e' = true ↔
    (Numbers e.nodes ∧ Numbers e'.nodes) ∧ e.relabel unsigned = e'.relabel unsigned
  | .identifier leaf, e' => by
    cases e' with
    | identifier leaf' =>
      simp [Expression.equal, Expression.nodes, Expression.relabel, Leaf.equalBy_eq_iff]
    | _ => exact Expression.equal_iff_of_ctorIdx_ne nofun
  | .integer leaf, e' => by
    cases e' with
    | integer leaf' =>
      simp [Expression.equal, Expression.nodes, Expression.relabel, Leaf.equalBy_eq_iff]
    | _ => exact Expression.equal_iff_of_ctorIdx_ne nofun
  | .float leaf, e' => by
    cases e' with
    | float leaf' =>
      simp [Expression.equal, Expression.nodes, Expression.relabel, Leaf.equalBy_float_iff]
    | _ => exact Expression.equal_iff_of_ctorIdx_ne nofun
  | .string leaf, e' => by
    cases e' with
    | string leaf' =>
      simp [Expression.equal, Expression.nodes, Expression.relabel, Leaf.equalBy_eq_iff]
    | _ => exact Expression.equal_iff_of_ctorIdx_ne nofun
  | .boolean leaf, e' => by
    cases e' with
    | boolean leaf' =>
      simp [Expression.equal, Expression.nodes, Expression.relabel, Leaf.equalBy_eq_iff]
    | _ => exact Expression.equal_iff_of_ctorIdx_ne nofun
  | .prefixOp token operator right, e' => by
    cases e' with
    | prefixOp token' operator' right' =>
      simp [Expression.equal, Expression.nodes, Expression.relabel, right.equal_iff right',
        and_assoc, and_left_comm]
    | _ => exact Expression.equal_iff_of_ctorIdx_ne nofun
  | .infixOp token left operator right, e' => by
    cases e' with
    | infixOp token' left' operator' right' =>
      simp [Expression.equal, Expression.nodes, Expression.relabel, left.equal_iff left',
        right.equal_iff right', and_assoc, and_left_comm]
    | _ => exact Expression.equal_iff_of_ctorIdx_ne nofun
  | .ifElse token condition consequence none, e' => by
    cases e' with
    | ifElse token' condition' consequence' alternative' =>
      cases alternative' with
      | none =>
        simp [Expression.equal, Expression.nodes, Expression.relabel,
          condition.equal_iff condition', consequence.equal_iff consequence', and_assoc,
          and_left_comm]
      | some b' => simp [Expression.equal, Expression.relabel]
    | _ => exact Expression.equal_iff_of_ctorIdx_ne nofun
  | .ifElse token condition consequence (some b), e' => by
    cases e' with
    | ifElse token' condition' consequence' alternative' =>
      cases alternative' with
      | none => simp [Expression.equal, Expression.relabel]
      | some b' =>
        simp [Expression.equal, Expression.nodes, Expression.relabel,
          condition.equal_iff condition', consequence.equal_iff consequence', b.equal_iff b',
          and_assoc, and_left_comm]
    | _ => exact Expression.equal_iff_of_ctorIdx_ne nofun
  | .forLoop token condition body, e' => by
    cases e' with
    | forLoop token' condition' body' =>
      simp [Expression.equal, Expression.nodes, Expression.relabel, condition.equal_iff condition',
        body.equal_iff body', and_assoc, and_left_comm]
    | _ => exact Expression.equal_iff_of_ctorIdx_ne nofun
  | .function token parameters body, e' => by
    cases e' with
    | function token' parameters' body' =>
      simp [Expression.equal, Expression.nodes, Expression.relabel, equalLeaves_iff,
        body.equal_iff body', and_assoc, and_left_comm]
    | _ => exact Expression.equal_iff_of_ctorIdx_ne nofun
  | .call token callee arguments, e' => by
    cases e' with
    | call token' callee' arguments' =>
      simp [Expression.equal, Expression.nodes, Expression.relabel, callee.equal_iff callee',
        equalExpressions_iff arguments arguments', and_assoc, and_left_comm]
    | _ => exact Expression.equal_iff_of_ctorIdx_ne nofun
  | .array token elements, e' => by
    cases e' with
    | array token' elements' =>
      simp [Expression.equal, Expression.nodes, Expression.relabel,
        equalExpressions_iff elements elements', and_assoc, and_left_comm]
    | _ => exact Expression.equal_iff_of_ctorIdx_ne nofun
  | .hash token pairs, e' => by
    cases e' with
    | hash token' pairs' =>
      simp [Expression.equal, Expression.nodes, Expression.relabel, equalPairs_iff pairs pairs',
        and_assoc, and_left_comm]
    | _ => exact Expression.equal_iff_of_ctorIdx_ne nofun
  | .index token left index, e' => by
    cases e' with
    | index token' left' index' =>
      simp [Expression.equal, Expression.nodes, Expression.relabel, left.equal_iff left',
        index.equal_iff index', and_assoc, and_left_comm]
    | _ => exact Expression.equal_iff_of_ctorIdx_ne nofun

theorem equalStatements_iff : ∀ l l' : List Statement, equalStatements l l' = true ↔
    (Numbers (statementNodes l) ∧ Numbers (statementNodes l')) ∧
      relabelStatements unsigned l = relabelStatements unsigned l'
  | [], [] => by simp [equalStatements, statementNodes]
  | [], s' :: rest' => by simp [equalStatements, relabelStatements]
  | s :: rest, [] => by simp [equalStatements, relabelStatements]
  | s :: rest, s' :: rest' => by
    simp [equalStatements, relabelStatements, statementNodes, s.equal_iff s',
      equalStatements_iff rest rest', and_assoc, and_left_comm]

theorem equalExpressions_iff : ∀ l l' : List Expression, equalExpressions l l' = true ↔
    (Numbers (expressionNodes l) ∧ Numbers (expressionNodes l')) ∧
      relabelExpressions unsigned l = relabelExpressions unsigned l'
  | [], [] => by simp [equalExpressions, expressionNodes]
  | [], e' :: rest' => by simp [equalExpressions, relabelExpressions]
  | e :: rest, [] => by simp [equalExpressions, relabelExpressions]
  | e :: rest, e' :: rest' => by
    simp [equalExpressions, relabelExpressions, expressionNodes, e.equal_iff e',
      equalExpressions_iff rest rest', and_assoc, and_left_comm]

theorem equalPairs_iff : ∀ l l' : List (Expression × Expression), equalPairs l l' = true ↔
    (Numbers (pairNodes l) ∧ Numbers (pairNodes l')) ∧
      relabelPairs unsigned l = relabelPairs unsigned l'
  | [], [] => by simp [equalPairs, pairNodes]
  | [], (key', value') :: rest' => by simp [equalPairs, relabelPairs]
  | (key, value) :: rest, [] => by simp [equalPairs, relabelPairs]
  | (key, value) :: rest, (key', value') :: rest' => by
    simp [equalPairs, relabelPairs, pairNodes, key.equal_iff key', value.equal_iff value',
      equalPairs_iff rest rest', and_assoc, and_left_comm]

end

theorem Tree.equal_iff {a b : Tree} : a.equal b = true ↔
    (Numbers a.nodes ∧ Numbers b.nodes) ∧ a.relabel unsigned = b.relabel unsigned := by
  cases a with
  | program p =>
    cases b with
    | program q =>
      simp [Tree.equal, Program.equal, Tree.nodes, Tree.relabel, equalStatements_iff,
        relabelStatements_eq_map]
    | _ => simp [Tree.equal, Tree.relabel]
  | statement s =>
    cases b with
    | statement s' => simp [Tree.equal, Tree.nodes, Tree.relabel, s.equal_iff s']
    | _ => simp [Tree.equal, Tree.relabel]
  | expression e =>
    cases b with
    | expression e' => simp [Tree.equal, Tree.nodes, Tree.relabel, e.equal_iff e']
    | _ => simp [Tree.equal, Tree.relabel]

/-! ## Node by node -/

/-- Floats that agree but for the signs of zeros are the same numbers, unless there is a NaN. -/
theorem forall₂_equal_iff {as bs : List (Leaf Number.Binary64)}
    (h : as.map unsigned.float = bs.map unsigned.float) :
    List.Forall₂ (fun x y => x.value.equal y.value = true) as bs ↔
      (∀ leaf ∈ as, leaf.value.isNaN = false) ∧ ∀ leaf ∈ bs, leaf.value.isNaN = false := by
  induction as generalizing bs with
  | nil =>
    obtain rfl : bs = [] := by simpa using h.symm
    simp
  | cons x as ih =>
    cases bs with
    | nil => cases h
    | cons y bs =>
      rw [List.map_cons, List.map_cons, List.cons.injEq] at h
      have hvalue : x.value.unsignZero = y.value.unsignZero := congrArg Leaf.value h.1
      have hhead : x.value.equal y.value = true ↔
          x.value.isNaN = false ∧ y.value.isNaN = false := by
        rw [Number.Binary64.equal_iff, and_iff_left hvalue]
      rw [List.forall₂_cons, ih h.2, hhead, List.forall_mem_cons, List.forall_mem_cons,
        and_and_and_comm]

theorem Tree.equal_iff_alike {a b : Tree} : a.equal b = true ↔ Alike a b := by
  have hfloats : a.relabel unsigned = b.relabel unsigned →
      a.floats.map unsigned.float = b.floats.map unsigned.float := fun h => by
    rw [← a.floats_relabel, h, b.floats_relabel]
  rw [Tree.equal_iff]
  constructor
  · rintro ⟨hnumbers, heq⟩
    refine ⟨heq, ?_, (forall₂_equal_iff (hfloats heq)).mpr hnumbers⟩
    have hnodes : a.nodes.map (Tree.relabel unsigned) = b.nodes.map (Tree.relabel unsigned) := by
      rw [← a.nodes_relabel, heq, b.nodes_relabel]
    have htokens := congrArg (List.map Tree.token?) hnodes
    simpa [Function.comp_def, Tree.token?_unsigned] using htokens
  · rintro ⟨heq, -, hsame⟩
    exact ⟨(forall₂_equal_iff (hfloats heq)).mp hsame, heq⟩

/-! ## Floats of a source -/

theorem numberChars_of_mem_tokenize {source : String} {t : Token} (ht : t ∈ tokenize source)
    (hkind : t.kind = .float) : ∀ c ∈ t.literal.toList, isNumberChar c = true := by
  rcases mem_tokenize_cases ht with rfl | ⟨-, before, l, after, hstands⟩
  · cases hkind
  · have hadmits := hstands.fits
    rw [Lexeme.Fits, ← hstands.kind_eq, hkind] at hadmits
    obtain ⟨hrun, -⟩ := hadmits
    rw [hstands.literal_eq (by simp [hkind]), String.toList_ofList]
    exact hrun.inside

theorem isNaN_of_floatOfToken {t : Token} {leaf : Leaf Number.Binary64} (ht : t.Scanned)
    (hleaf : Leaf.floatOfToken t = .ok leaf) : leaf.value.isNaN = false := by
  obtain ⟨source, ht⟩ := ht
  obtain ⟨hkind, -, hread⟩ := Leaf.floatOfToken_eq_ok_iff.mp hleaf
  refine Number.isNaN_readBinary64 (numberChars_of_mem_tokenize ht hkind) ?_
  rwa [String.ofList_toList]

theorem equal_partialEquivalence :
    (∀ a b : Tree, a.equal b = true → b.equal a = true) ∧
      (∀ a b c : Tree, a.equal b = true → b.equal c = true → a.equal c = true) ∧
      (∀ a : Tree, a.equal a = true ↔ ∀ leaf ∈ a.floats, leaf.value.isNaN = false) ∧
      (∀ a b : Tree, a.equal b = true ↔ Alike a b) ∧
      (∀ (t : Token) (leaf : Leaf Number.Binary64), t.Scanned → Leaf.floatOfToken t = .ok leaf →
        leaf.value.isNaN = false) ∧
      ∀ a : Tree, (∀ leaf ∈ a.floats, leaf.Scanned Leaf.floatOfToken) → a.equal a = true := by
  have hself (a : Tree) : a.equal a = true ↔ ∀ leaf ∈ a.floats, leaf.value.isNaN = false := by
    rw [Tree.equal_iff, and_self, eq_self, and_true]
    rfl
  refine ⟨?symm, ?trans, hself, fun a b => Tree.equal_iff_alike,
    fun t leaf => isNaN_of_floatOfToken, ?scanned⟩
  case symm =>
    intro a b h
    obtain ⟨⟨ha, hb⟩, heq⟩ := Tree.equal_iff.mp h
    exact Tree.equal_iff.mpr ⟨⟨hb, ha⟩, heq.symm⟩
  case trans =>
    intro a b c hab hbc
    obtain ⟨⟨ha, -⟩, heq⟩ := Tree.equal_iff.mp hab
    obtain ⟨⟨-, hc⟩, heq'⟩ := Tree.equal_iff.mp hbc
    exact Tree.equal_iff.mpr ⟨⟨ha, hc⟩, heq.trans heq'⟩
  case scanned =>
    intro a hscanned
    refine (hself a).mpr fun leaf hleaf => ?_
    obtain ⟨t, ht, hread⟩ := hscanned leaf hleaf
    exact isNaN_of_floatOfToken ht hread

/-- The tree of `[0.0]`, where the float holds the given value. -/
def singleFloat (value : Number.Binary64) : Tree :=
  .expression (.array ⟨.punctuation .openBracket, "[", ⟨0, 1⟩⟩
    [.float ⟨⟨.float, "0.0", ⟨1, 4⟩⟩, value⟩])

theorem floats_singleFloat (value : Number.Binary64) :
    (singleFloat value).floats = [⟨⟨.float, "0.0", ⟨1, 4⟩⟩, value⟩] := by
  simp [singleFloat, Tree.floats, Tree.nodes, Expression.nodes, expressionNodes, Tree.float?]

theorem scanned_zero :
    Leaf.Scanned Leaf.floatOfToken ⟨⟨.float, "0.0", ⟨1, 4⟩⟩, ⟨0⟩⟩ :=
  ⟨_, ⟨"[0.0]", by decide +kernel⟩, Leaf.floatOfToken_eq_ok_iff.mpr ⟨rfl, rfl, rfl⟩⟩

/-- The zeros make equal trees, the scanned one is equal to itself, and with a NaN it is not. -/
theorem equal_singleFloat :
    (singleFloat (.ofMagnitude true 0)).equal (singleFloat ⟨0⟩) = true ∧
      Alike (singleFloat ⟨0⟩) (singleFloat (.ofMagnitude true 0)) ∧
      Number.Binary64.isNaN ⟨0⟩ = false ∧
      (singleFloat ⟨0⟩).equal (singleFloat ⟨0⟩) = true ∧
      (singleFloat .nan).equal (singleFloat .nan) = false := by
  obtain ⟨hsymm, htrans, hself, halike, hread, hscanned⟩ := equal_partialEquivalence
  have hzeros : (singleFloat (.ofMagnitude true 0)).equal (singleFloat ⟨0⟩) = true := by
    decide +kernel
  have hback := hsymm _ _ hzeros
  obtain ⟨t, ht, hleaf⟩ := scanned_zero
  have hzero : (singleFloat ⟨0⟩).equal (singleFloat ⟨0⟩) = true := by
    refine hscanned _ ?_
    rw [floats_singleFloat, List.forall_mem_singleton]
    exact scanned_zero
  refine ⟨htrans _ _ _ hzeros hzero, (halike _ _).mp hback, hread t _ ht hleaf, hzero,
    eq_false_of_ne_true fun h => ?_⟩
  have hnan := (hself _).mp h
  rw [floats_singleFloat, List.forall_mem_singleton] at hnan
  exact absurd hnan (by decide)

end ScriptFrontend
