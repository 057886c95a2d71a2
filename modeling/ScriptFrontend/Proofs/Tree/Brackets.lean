import ScriptFrontend.Tree.Nodes
import ScriptFrontend.Tree.Render

/-!
# Brackets in renderings

A bracket that opens is closed by its own kind, and before any that was open when it came.
`Nests stack text stack' opened` follows this through a piece of a text: the closing brackets that
are due go from `stack` to `stack'`, and the piece opens the brackets `opened`. A rendering, in
whatever it stands, leaves the stack as it was and opens the brackets of its nodes, provided
that names and literals bring in none (`Expression.nests` and its like). So brackets match in every
rendering and can be counted off its nodes (`wellNested_render`).
-/

namespace ScriptFrontend

def isBracket (c : Char) : Bool := ['(', ')', '[', ']', '\x7b', '\x7d'].contains c

/-- The bracket that closes what the character opens. -/
def closing? : Char → Option Char
  | '(' => some ')'
  | '[' => some ']'
  | '\x7b' => some '\x7d'
  | _ => none

/-- Reads a bracket when those on the stack are due, from the innermost on. Of the closing
brackets only the innermost may come. -/
def nestStep (stack : List Char) (c : Char) : Option (List Char) :=
  match closing? c with
  | some close => some (close :: stack)
  | none => if stack.head? = some c then some stack.tail else none

/-- Each closing bracket belongs to the last open bracket, and none stays open. -/
def WellNested (brackets : List Char) : Prop := brackets.foldlM nestStep [] = some []

instance (brackets : List Char) : Decidable (WellNested brackets) :=
  inferInstanceAs (Decidable (_ = _))

def bracketsOf (text : String) : List Char := text.toList.filter isBracket

/-! ## Brackets of nodes -/

namespace Tree

/-- What the rendering of the node itself takes from its leaf or keyword. -/
def ownText? : Tree → Option String
  | statement (.var token _ _) | statement (.ret token _) => some token.literal
  | expression (.identifier leaf) => some leaf.value
  | expression (.integer leaf) => some leaf.token.literal
  | expression (.float leaf) => some leaf.token.literal
  | expression (.string leaf) => some leaf.token.literal
  | expression (.boolean leaf) => some leaf.token.literal
  | expression (.function token _ _) => some token.literal
  | _ => none

/-- The brackets that the rendering of the node itself opens. -/
def opens : Tree → List Char
  | expression (.prefixOp _ _ _) | expression (.infixOp _ _ _ _) | expression (.call _ _ _)
  | expression (.function _ _ _) => ['(']
  | expression (.index _ _ _) => ['(', '[']
  | expression (.array _ _) => ['[']
  | expression (.hash _ _) => ['\x7b']
  | _ => []

def opensParenthesis : Tree → Bool
  | expression (.prefixOp _ _ _) | expression (.infixOp _ _ _ _) | expression (.index _ _ _)
  | expression (.call _ _ _) | expression (.function _ _ _) => true
  | _ => false

def opensSquare : Tree → Bool
  | expression (.array _ _) | expression (.index _ _ _) => true
  | _ => false

def opensBrace : Tree → Bool
  | expression (.hash _ _) => true
  | _ => false

end Tree

def Unbracketed (text : String) : Prop := bracketsOf text = []

instance (text : String) : Decidable (Unbracketed text) := inferInstanceAs (Decidable (_ = _))

/-- No name and no literal that is printed has brackets in it. -/
def PlainTexts (nodes : List Tree) : Prop := ∀ n ∈ nodes, ∀ text ∈ n.ownText?, Unbracketed text

instance (nodes : List Tree) : Decidable (PlainTexts nodes) :=
  inferInstanceAs (Decidable (∀ n ∈ nodes, ∀ text ∈ n.ownText?, Unbracketed text))

theorem plainTexts_append {ns ms : List Tree} :
    PlainTexts (ns ++ ms) ↔ PlainTexts ns ∧ PlainTexts ms := List.forall_mem_append

/-! ## Pieces of a text -/

/-- Reading the text takes the due closing brackets from `stack` to `stack'`, and it opens as many
brackets of each kind as `opened` has. -/
structure Nests (stack : List Char) (text : String) (stack' opened : List Char) : Prop where
  run : (bracketsOf text).foldlM nestStep stack = some stack'
  count : ∀ o, (closing? o).isSome → text.toList.count o = opened.count o

namespace Nests

variable {s s' s'' os ps : List Char} {a b : String}

theorem append (ha : Nests s a s' os) (hb : Nests s' b s'' ps) :
    Nests s (a ++ b) s'' (os ++ ps) where
  run := by
    rw [bracketsOf, String.toList_append, List.filter_append, List.foldlM_append]
    exact (congrArg (· >>= _) ha.run).trans hb.run
  count o ho := by
    rw [String.toList_append, List.count_append, List.count_append, ha.count o ho, hb.count o ho]

theorem isBracket_of_opens {o : Char} (h : (closing? o).isSome) : isBracket o = true := by
  unfold closing? at h
  split at h <;> first | rfl | cases h

theorem plain (h : Unbracketed a) : Nests s a s [] where
  run := by
    rw [h]
    rfl
  count o ho := by
    rw [List.count_nil, List.count_eq_zero]
    intro hmem
    have hkept : o ∈ bracketsOf a := List.mem_filter.mpr ⟨hmem, isBracket_of_opens ho⟩
    rw [h] at hkept
    cases hkept

theorem andPlain (ha : Nests s a s' os) (b : String) (hb : Unbracketed b := by rfl) :
    Nests s (a ++ b) s' os := by
  have h := ha.append (plain hb)
  rwa [List.append_nil] at h

theorem opening (o : Char) {c : Char} (ho : closing? o = some c) (htext : a.toList = [o]) :
    Nests s a (c :: s) [o] where
  run := by
    have hbracket := isBracket_of_opens (o := o) (by rw [ho]; rfl)
    rw [bracketsOf, htext, List.filter_cons_of_pos hbracket, List.filter_nil, List.foldlM_cons,
      nestStep, ho]
    rfl
  count _ _ := by rw [htext]

theorem closed (c : Char) (hc : isBracket c = true) (hno : closing? c = none)
    (htext : a.toList = [c]) : Nests (c :: s) a s [] where
  run := by
    rw [bracketsOf, htext, List.filter_cons_of_pos hc, List.filter_nil, List.foldlM_cons,
      nestStep, hno]
    simp
  count o ho := by
    have hne : o ≠ c := by
      rintro rfl
      rw [hno] at ho
      cases ho
    rw [htext, List.count_nil, List.count_eq_zero, List.mem_singleton]
    exact hne

/-- Only how many brackets of each kind are opened matters, not their order. -/
theorem ofNode (h : Nests s a s os) {ns : List Tree} {n : Tree}
    (hcount : ∀ o, os.count o = (ns.flatMap Tree.opens).count o + n.opens.count o) :
    Nests s a s ((ns ++ [n]).flatMap Tree.opens) where
  run := h.run
  count o ho := by
    rw [h.count o ho, hcount, List.flatMap_append, List.flatMap_singleton, List.count_append]

theorem join {l : List String} (ha : Nests s a s os) (hl : Nests s (String.join l) s ps) :
    Nests s (String.join (a :: l)) s (os ++ ps) := by
  rw [String.join_cons]
  exact ha.append hl

theorem commas {l : List String} (ha : Nests s a s os) (hl : Nests s (", ".intercalate l) s ps) :
    Nests s (", ".intercalate (a :: l)) s (os ++ ps) := by
  cases l with
  | nil =>
    have h := ha.append hl
    rwa [String.intercalate_nil, String.append_empty] at h
  | cons b l =>
    rw [String.intercalate_cons_cons]
    exact (ha.andPlain ", ").append hl

end Nests

theorem unbracketed_spelling (o : Operator) : Unbracketed o.spelling := by
  cases o <;> rfl

theorem nests_parameters {parameters : List (Leaf String)}
    (h : PlainTexts (parameters.map Leaf.node)) (s : List Char) :
    Nests s (", ".intercalate (parameters.map Leaf.value)) s [] := by
  induction parameters with
  | nil => exact .plain rfl
  | cons p parameters ih =>
    obtain ⟨hp, hrest⟩ := List.forall_mem_cons.mp h
    exact .commas (.plain (hp p.value rfl)) (ih hrest)

theorem opens_parameters (parameters : List (Leaf String)) :
    (parameters.map Leaf.node).flatMap Tree.opens = [] := by
  rw [List.flatMap_map, List.flatMap_eq_nil_iff]
  exact fun _ _ => rfl

/-- The last node is the tree itself. -/
theorem PlainTexts.own {ns : List Tree} {n : Tree} (h : PlainTexts (ns ++ [n])) {text : String}
    (htext : n.ownText? = some text) : Unbracketed text :=
  h n (by simp) text htext

/-! ## Renderings

One case for each constructor: the piece in front, then each part as the renderer puts it. The
brackets are counted as the pieces come, and `ofNode` brings them into the order of the nodes. -/

mutual

theorem Statement.nests : (t : Statement) → PlainTexts t.nodes → ∀ s,
    Nests s t.render s (t.nodes.flatMap Tree.opens)
  | .var token name none, h, s => by
    have hname : Unbracketed name.value := h name.node List.mem_cons_self _ rfl
    have hfront := ((Nests.plain (s := s) (h.own rfl)).andPlain " ").andPlain name.value hname
    exact ((hfront.andPlain " = ").andPlain "").andPlain ";"
  | .var token name (some e), h, s => by
    have hname : Unbracketed name.value := h name.node List.mem_cons_self _ rfl
    have hfront := ((Nests.plain (s := s) (h.own rfl)).andPlain " ").andPlain name.value hname
    have hparts := plainTexts_append.mp (List.forall_mem_cons.mp h).2
    refine .ofNode (((hfront.andPlain " = ").append (e.nests hparts.1 s)).andPlain ";") fun o => ?_
    simp [Tree.opens, Leaf.node]
  | .ret token none, h, s =>
    (((Nests.plain (s := s) (h.own rfl)).andPlain " ").andPlain "").andPlain ";"
  | .ret token (some e), h, s => by
    have hfront := (Nests.plain (s := s) (h.own rfl)).andPlain " "
    have hparts := plainTexts_append.mp h
    refine .ofNode ((hfront.append (e.nests hparts.1 s)).andPlain ";") fun o => ?_
    simp [Tree.opens]
  | .expression token none, h, s => .plain (a := "") rfl
  | .expression token (some e), h, s => by
    have hparts := plainTexts_append.mp h
    exact (e.nests hparts.1 s).ofNode fun o => by simp [Tree.opens]
  | .block body, h, s => body.nests h s

theorem Block.nests : (b : Block) → PlainTexts b.nodes → ∀ s,
    Nests s b.render s (b.nodes.flatMap Tree.opens)
  | .mk token statements, h, s => by
    have hparts := plainTexts_append.mp h
    exact (nests_statements statements hparts.1 s).ofNode fun o => by simp [Tree.opens]

theorem Expression.nests : (e : Expression) → PlainTexts e.nodes → ∀ s,
    Nests s e.render s (e.nodes.flatMap Tree.opens)
  | .identifier leaf, h, s => .plain (h _ List.mem_cons_self _ rfl)
  | .integer leaf, h, s => .plain (h _ List.mem_cons_self _ rfl)
  | .float leaf, h, s => .plain (h _ List.mem_cons_self _ rfl)
  | .string leaf, h, s => .plain (h _ List.mem_cons_self _ rfl)
  | .boolean leaf, h, s => .plain (h _ List.mem_cons_self _ rfl)
  | .prefixOp token operator right, h, s => by
    have hright := right.nests (plainTexts_append.mp h).1
    have hfront := (Nests.opening (s := s) (a := "(") '(' rfl rfl).andPlain operator.spelling
      (unbracketed_spelling operator)
    refine .ofNode ((hfront.append (hright _)).append (.closed ')' rfl rfl rfl)) fun o => ?_
    simp only [Tree.opens, List.count_append, List.count_nil]
    omega
  | .infixOp token left operator right, h, s => by
    have hparts := plainTexts_append.mp (plainTexts_append.mp h).1
    have hleft := (Nests.opening (s := s) (a := "(") '(' rfl rfl).append (left.nests hparts.1 _)
    have hoperator := (hleft.andPlain " ").andPlain operator.spelling
      (unbracketed_spelling operator)
    have hright := (hoperator.andPlain " ").append (right.nests hparts.2 _)
    refine .ofNode (hright.append (.closed ')' rfl rfl rfl)) fun o => ?_
    simp only [Tree.opens, List.flatMap_append, List.count_append, List.count_nil]
    omega
  | .ifElse token condition consequence none, h, s => by
    have hparts := plainTexts_append.mp (plainTexts_append.mp (plainTexts_append.mp h).1).1
    have hcondition := (Nests.plain (a := "if") rfl).append (condition.nests hparts.1 s)
    have hbranch := (hcondition.andPlain " ").append (consequence.nests hparts.2 s)
    refine .ofNode (hbranch.andPlain "") fun o => ?_
    simp [Tree.opens]
  | .ifElse token condition consequence (some alternative), h, s => by
    have hbranches := plainTexts_append.mp (plainTexts_append.mp h).1
    have hparts := plainTexts_append.mp hbranches.1
    have hcondition := (Nests.plain (a := "if") rfl).append (condition.nests hparts.1 s)
    have hbranch := (hcondition.andPlain " ").append (consequence.nests hparts.2 s)
    have helse := (Nests.plain (a := "else ") rfl).append (alternative.nests hbranches.2 s)
    refine .ofNode (hbranch.append helse) fun o => ?_
    simp [Tree.opens]
  | .forLoop token condition body, h, s => by
    have hparts := plainTexts_append.mp (plainTexts_append.mp h).1
    have hfront := (Nests.plain (a := "for") rfl).append (condition.nests hparts.1 s)
    refine .ofNode ((hfront.andPlain " ").append (body.nests hparts.2 s)) fun o => ?_
    simp [Tree.opens]
  | .function token parameters body, h, s => by
    have hparts := plainTexts_append.mp (plainTexts_append.mp h).1
    have hfront := (Nests.plain (s := s) (h.own rfl)).append
      (.opening (a := "(") '(' rfl rfl)
    have hparameters := (hfront.append (nests_parameters hparts.1 _)).append
      (.closed (a := ")") ')' rfl rfl rfl)
    refine .ofNode (hparameters.append (body.nests hparts.2 s)) fun o => ?_
    simp only [Tree.opens, List.flatMap_append, opens_parameters, List.count_append,
      List.count_nil]
    omega
  | .call token callee arguments, h, s => by
    have hparts := plainTexts_append.mp (plainTexts_append.mp h).1
    have hfront := (callee.nests hparts.1 s).append (.opening (a := "(") '(' rfl rfl)
    have harguments := hfront.append (nests_expressions arguments hparts.2 _)
    refine .ofNode (harguments.append (.closed ')' rfl rfl rfl)) fun o => ?_
    simp only [Tree.opens, List.flatMap_append, List.count_append, List.count_nil]
    omega
  | .array token elements, h, s => by
    have hparts := plainTexts_append.mp h
    have hfront := (Nests.opening (s := s) (a := "[") '[' rfl rfl).append
      (nests_expressions elements hparts.1 _)
    refine .ofNode (hfront.append (.closed ']' rfl rfl rfl)) fun o => ?_
    simp only [Tree.opens, List.count_append, List.count_nil]
    omega
  | .hash token pairs, h, s => by
    have hparts := plainTexts_append.mp h
    have hfront := (Nests.opening (s := s) (a := "\x7b") '\x7b' rfl rfl).append
      (nests_pairs pairs hparts.1 _)
    refine .ofNode (hfront.append (.closed '\x7d' rfl rfl rfl)) fun o => ?_
    simp only [Tree.opens, List.count_append, List.count_nil]
    omega
  | .index token left index, h, s => by
    have hparts := plainTexts_append.mp (plainTexts_append.mp h).1
    have hleft := (Nests.opening (s := s) (a := "(") '(' rfl rfl).append (left.nests hparts.1 _)
    have hindex := (hleft.append (.opening (a := "[") '[' rfl rfl)).append
      (index.nests hparts.2 _)
    have hclosed := (Nests.closed (s := ')' :: s) (a := "]") ']' rfl rfl rfl).append
      (.closed (a := ")") ')' rfl rfl rfl)
    refine .ofNode (hindex.append hclosed) fun o => ?_
    simp only [Tree.opens, List.flatMap_append, List.count_append, List.count_cons,
      List.count_nil]
    omega

theorem nests_statements : (l : List Statement) → PlainTexts (statementNodes l) → ∀ s,
    Nests s (String.join (renderStatements l)) s ((statementNodes l).flatMap Tree.opens)
  | [], _, s => .plain rfl
  | t :: rest, h, s => by
    rw [statementNodes, plainTexts_append] at h
    rw [renderStatements, statementNodes, List.flatMap_append]
    exact .join (t.nests h.1 s) (nests_statements rest h.2 s)

theorem nests_expressions : (l : List Expression) → PlainTexts (expressionNodes l) → ∀ s,
    Nests s (", ".intercalate (renderExpressions l)) s ((expressionNodes l).flatMap Tree.opens)
  | [], _, s => .plain rfl
  | e :: rest, h, s => by
    rw [expressionNodes, plainTexts_append] at h
    rw [renderExpressions, expressionNodes, List.flatMap_append]
    exact .commas (e.nests h.1 s) (nests_expressions rest h.2 s)

theorem nests_pairs : (l : List (Expression × Expression)) → PlainTexts (pairNodes l) → ∀ s,
    Nests s (", ".intercalate (renderPairs l)) s ((pairNodes l).flatMap Tree.opens)
  | [], _, s => .plain rfl
  | (key, value) :: rest, h, s => by
    rw [pairNodes, plainTexts_append, plainTexts_append] at h
    rw [renderPairs, pairNodes, List.flatMap_append, List.flatMap_append]
    refine .commas ?_ (nests_pairs rest h.2 s)
    exact ((key.nests h.1.1 s).andPlain ":").append (value.nests h.1.2 s)

end

theorem Tree.nests (t : Tree) (h : PlainTexts t.nodes) (s : List Char) :
    Nests s t.render s (t.nodes.flatMap Tree.opens) := by
  cases t with
  | program p =>
    rw [Tree.render, Program.render, ← renderStatements_eq_map]
    refine (nests_statements p.statements (plainTexts_append.mp h).1 s).ofNode fun o => ?_
    rw [show (Tree.program p).opens = [] from rfl, List.count_nil, Nat.add_zero]
  | statement t => exact t.nests h s
  | expression e => exact e.nests h s

/-! ## Counting -/

theorem count_opens {o : Char} {p : Tree → Bool}
    (hnode : ∀ n : Tree, n.opens.count o = if p n then 1 else 0) (nodes : List Tree) :
    (nodes.flatMap Tree.opens).count o = nodes.countP p := by
  induction nodes with
  | nil => rfl
  | cons n nodes ih =>
    rw [List.flatMap_cons, List.count_append, hnode, ih, List.countP_cons, Nat.add_comm]

theorem count_parenthesis (n : Tree) :
    n.opens.count '(' = if n.opensParenthesis then 1 else 0 := by
  cases n with
  | expression e => cases e <;> rfl
  | _ => rfl

theorem count_square (n : Tree) : n.opens.count '[' = if n.opensSquare then 1 else 0 := by
  cases n with
  | expression e => cases e <;> rfl
  | _ => rfl

theorem count_brace (n : Tree) : n.opens.count '\x7b' = if n.opensBrace then 1 else 0 := by
  cases n with
  | expression e => cases e <;> rfl
  | _ => rfl

theorem wellNested_render (t : Tree) (h : PlainTexts t.nodes) :
    WellNested (bracketsOf t.render) ∧
      t.render.toList.count '(' = t.nodes.countP Tree.opensParenthesis ∧
      t.render.toList.count '[' = t.nodes.countP Tree.opensSquare ∧
      t.render.toList.count '\x7b' = t.nodes.countP Tree.opensBrace := by
  have hnests := t.nests h []
  refine ⟨hnests.run, ?_, ?_, ?_⟩
  · exact (hnests.count '(' rfl).trans (count_opens count_parenthesis _)
  · exact (hnests.count '[' rfl).trans (count_opens count_square _)
  · exact (hnests.count '\x7b' rfl).trans (count_opens count_brace _)

/-- A declaration that calls an entry of a table of arrays. -/
def nesting : Tree :=
  let one : Expression := .integer ⟨⟨.int, "1", ⟨0, 1⟩⟩, 1⟩
  let table : Expression := .hash (.eof 0) [(one, .array (.eof 0) [one])]
  .program ⟨[.var ⟨.keyword .varKw, "var", ⟨0, 3⟩⟩ ⟨⟨.ident, "f", ⟨4, 5⟩⟩, "f"⟩
    (some (.call (.eof 0) (.index (.eof 0) table one) [one]))]⟩

theorem wellNested_nesting :
    PlainTexts nesting.nodes ∧ nesting.render = "var f = (\x7b1:[1]\x7d[1])(1);" ∧
      WellNested (bracketsOf nesting.render) ∧
      nesting.render.toList.count '(' = 2 ∧ nesting.render.toList.count '[' = 2 ∧
      nesting.render.toList.count '\x7b' = 1 :=
  have hplain : PlainTexts nesting.nodes := by decide +kernel
  ⟨hplain, by decide +kernel, wellNested_render nesting hplain⟩

end ScriptFrontend
