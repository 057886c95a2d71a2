import ScriptFrontend.Tree.Render

/-!
# What renderings read

A relabeling changes the tokens and leaves of a tree and keeps its shape and operators. If it keeps
names, the literals of other leaves and the words of declarations, returns and functions, then the
rendering stays the same (`Tree.render_relabel`). So trees that agree in all these have one
rendering, whatever else their nodes hold (`render_eq_of_relabel_eq`).
-/

namespace ScriptFrontend

/-- What becomes of the tokens and the leaves of a tree. -/
structure Relabeling where
  /-- For the tokens of nodes that have no function of their own below. -/
  node : Token → Token
  /-- For the tokens of declarations, returns and functions. -/
  word : Token → Token
  identifier : Leaf String → Leaf String
  integer : Leaf Int64 → Leaf Int64
  float : Leaf Number.Binary64 → Leaf Number.Binary64
  string : Leaf String → Leaf String
  boolean : Leaf Bool → Leaf Bool

section

variable (r : Relabeling)

mutual

def Statement.relabel : Statement → Statement
  | .var token name value =>
    .var (r.word token) (r.identifier name)
      (match value with | none => none | some e => some e.relabel)
  | .ret token value =>
    .ret (r.word token) (match value with | none => none | some e => some e.relabel)
  | .expression token body =>
    .expression (r.node token) (match body with | none => none | some e => some e.relabel)
  | .block body => .block body.relabel

def Block.relabel : Block → Block
  | .mk token statements => .mk (r.node token) (relabelStatements statements)

def Expression.relabel : Expression → Expression
  | .identifier leaf => .identifier (r.identifier leaf)
  | .integer leaf => .integer (r.integer leaf)
  | .float leaf => .float (r.float leaf)
  | .string leaf => .string (r.string leaf)
  | .boolean leaf => .boolean (r.boolean leaf)
  | .prefixOp token operator right => .prefixOp (r.node token) operator right.relabel
  | .infixOp token left operator right =>
    .infixOp (r.node token) left.relabel operator right.relabel
  | .ifElse token condition consequence alternative =>
    .ifElse (r.node token) condition.relabel consequence.relabel
      (match alternative with | none => none | some b => some b.relabel)
  | .forLoop token condition body => .forLoop (r.node token) condition.relabel body.relabel
  | .function token parameters body =>
    .function (r.word token) (parameters.map r.identifier) body.relabel
  | .call token callee arguments =>
    .call (r.node token) callee.relabel (relabelExpressions arguments)
  | .array token elements => .array (r.node token) (relabelExpressions elements)
  | .hash token pairs => .hash (r.node token) (relabelPairs pairs)
  | .index token left index => .index (r.node token) left.relabel index.relabel

def relabelStatements : List Statement → List Statement
  | [] => []
  | s :: rest => s.relabel :: relabelStatements rest

def relabelExpressions : List Expression → List Expression
  | [] => []
  | e :: rest => e.relabel :: relabelExpressions rest

def relabelPairs : List (Expression × Expression) → List (Expression × Expression)
  | [] => []
  | (key, value) :: rest => (key.relabel, value.relabel) :: relabelPairs rest

end

end

def Tree.relabel (r : Relabeling) : Tree → Tree
  | program p => .program ⟨p.statements.map (Statement.relabel r)⟩
  | statement s => .statement (s.relabel r)
  | expression e => .expression (e.relabel r)

namespace Relabeling

/-- Keeps all that a rendering may show, and blanks all else. -/
def shown : Relabeling where
  node _ := .eof 0
  word t := ⟨.eof, t.literal, .zero⟩
  identifier leaf := ⟨.eof 0, leaf.value⟩
  integer leaf := ⟨⟨.eof, leaf.token.literal, .zero⟩, 0⟩
  float leaf := ⟨⟨.eof, leaf.token.literal, .zero⟩, ⟨0⟩⟩
  string leaf := ⟨⟨.eof, leaf.token.literal, .zero⟩, ""⟩
  boolean leaf := ⟨⟨.eof, leaf.token.literal, .zero⟩, false⟩

/-- The token at no place in particular. -/
def unplace (t : Token) : Token := ⟨t.kind, t.literal, .zero⟩

/-- Moves all tokens to the same place. -/
def unplaced : Relabeling where
  node := unplace
  word := unplace
  identifier leaf := ⟨unplace leaf.token, leaf.value⟩
  integer leaf := ⟨unplace leaf.token, leaf.value⟩
  float leaf := ⟨unplace leaf.token, leaf.value⟩
  string leaf := ⟨unplace leaf.token, leaf.value⟩
  boolean leaf := ⟨unplace leaf.token, leaf.value⟩

/-- Identifiers keep their names, and the other tokens that are printed keep their literals. -/
structure KeepsText (r : Relabeling) : Prop where
  word : ∀ t, (r.word t).literal = t.literal
  identifier : ∀ leaf, (r.identifier leaf).value = leaf.value
  integer : ∀ leaf, (r.integer leaf).token.literal = leaf.token.literal
  float : ∀ leaf, (r.float leaf).token.literal = leaf.token.literal
  string : ∀ leaf, (r.string leaf).token.literal = leaf.token.literal
  boolean : ∀ leaf, (r.boolean leaf).token.literal = leaf.token.literal

theorem keepsText_shown : shown.KeepsText :=
  ⟨fun _ => rfl, fun _ => rfl, fun _ => rfl, fun _ => rfl, fun _ => rfl, fun _ => rfl⟩

theorem keepsText_unplaced : unplaced.KeepsText :=
  ⟨fun _ => rfl, fun _ => rfl, fun _ => rfl, fun _ => rfl, fun _ => rfl, fun _ => rfl⟩

end Relabeling

/-! ## Renderings of relabeled trees -/

section

variable {r : Relabeling}

theorem map_value_identifier (h : r.KeepsText) (parameters : List (Leaf String)) :
    (parameters.map r.identifier).map Leaf.value = parameters.map Leaf.value := by
  rw [List.map_map]
  exact List.map_congr_left fun leaf _ => h.identifier leaf

mutual

theorem Statement.render_relabel (h : r.KeepsText) :
    (s : Statement) → (s.relabel r).render = s.render
  | .var token name none => by
    simp [Statement.relabel, Statement.render, h.word, h.identifier]
  | .var token name (some e) => by
    simp [Statement.relabel, Statement.render, h.word, h.identifier, e.render_relabel h]
  | .ret token none => by simp [Statement.relabel, Statement.render, h.word]
  | .ret token (some e) => by
    simp [Statement.relabel, Statement.render, h.word, e.render_relabel h]
  | .expression token none => rfl
  | .expression token (some e) => e.render_relabel h
  | .block body => body.render_relabel h

theorem Block.render_relabel (h : r.KeepsText) : (b : Block) → (b.relabel r).render = b.render
  | .mk _ statements => congrArg String.join (renderStatements_relabel h statements)

theorem Expression.render_relabel (h : r.KeepsText) :
    (e : Expression) → (e.relabel r).render = e.render
  | .identifier leaf => h.identifier leaf
  | .integer leaf => h.integer leaf
  | .float leaf => h.float leaf
  | .string leaf => h.string leaf
  | .boolean leaf => h.boolean leaf
  | .prefixOp token operator right => by
    simp [Expression.relabel, Expression.render, right.render_relabel h]
  | .infixOp token left operator right => by
    simp [Expression.relabel, Expression.render, left.render_relabel h, right.render_relabel h]
  | .ifElse token condition consequence none => by
    simp [Expression.relabel, Expression.render, condition.render_relabel h,
      consequence.render_relabel h]
  | .ifElse token condition consequence (some b) => by
    simp [Expression.relabel, Expression.render, condition.render_relabel h,
      consequence.render_relabel h, b.render_relabel h]
  | .forLoop token condition body => by
    simp [Expression.relabel, Expression.render, condition.render_relabel h,
      body.render_relabel h]
  | .function token parameters body => by
    rw [Expression.relabel, Expression.render, Expression.render, h.word,
      map_value_identifier h, body.render_relabel h]
  | .call token callee arguments => by
    simp [Expression.relabel, Expression.render, callee.render_relabel h,
      renderExpressions_relabel h arguments]
  | .array token elements => by
    simp [Expression.relabel, Expression.render, renderExpressions_relabel h elements]
  | .hash token pairs => by
    simp [Expression.relabel, Expression.render, renderPairs_relabel h pairs]
  | .index token left index => by
    simp [Expression.relabel, Expression.render, left.render_relabel h, index.render_relabel h]

theorem renderStatements_relabel (h : r.KeepsText) :
    (l : List Statement) → renderStatements (relabelStatements r l) = renderStatements l
  | [] => rfl
  | s :: rest => by
    rw [relabelStatements, renderStatements, renderStatements, s.render_relabel h,
      renderStatements_relabel h rest]

theorem renderExpressions_relabel (h : r.KeepsText) :
    (l : List Expression) → renderExpressions (relabelExpressions r l) = renderExpressions l
  | [] => rfl
  | e :: rest => by
    rw [relabelExpressions, renderExpressions, renderExpressions, e.render_relabel h,
      renderExpressions_relabel h rest]

theorem renderPairs_relabel (h : r.KeepsText) :
    (l : List (Expression × Expression)) → renderPairs (relabelPairs r l) = renderPairs l
  | [] => rfl
  | (key, value) :: rest => by
    rw [relabelPairs, renderPairs, renderPairs, key.render_relabel h, value.render_relabel h,
      renderPairs_relabel h rest]

end

theorem Tree.render_relabel (h : r.KeepsText) (t : Tree) : (t.relabel r).render = t.render := by
  cases t with
  | program p =>
    rw [relabel, render, render, Program.render, Program.render, List.map_map]
    congr 1
    exact List.map_congr_left fun s _ => s.render_relabel h
  | statement s => exact s.render_relabel h
  | expression e => exact e.render_relabel h

/-- What a text-keeping relabeling does not tell apart renders alike. -/
theorem Tree.render_eq (h : r.KeepsText) {t u : Tree} (heq : t.relabel r = u.relabel r) :
    t.render = u.render := by
  rw [← t.render_relabel h, heq, u.render_relabel h]

end

theorem render_eq_of_relabel_eq :
    (∀ t u : Tree, t.relabel .shown = u.relabel .shown → t.render = u.render) ∧
      ∀ t u : Tree, t.relabel .unplaced = u.relabel .unplaced → t.render = u.render :=
  ⟨fun _ _ => Tree.render_eq Relabeling.keepsText_shown,
    fun _ _ => Tree.render_eq Relabeling.keepsText_unplaced⟩

/-- Half of `x`, at a place, with tokens of the given kind and a value that may be wrong. -/
def halving (n : Nat) (kind : TokenKind) (half : Number.Binary64) : Tree :=
  .statement (.ret ⟨kind, "return", ⟨n, n + 6⟩⟩
    (some (.infixOp ⟨kind, "*", ⟨n + 9, n + 10⟩⟩
      (.identifier ⟨⟨kind, "x", ⟨n + 7, n + 8⟩⟩, "x"⟩) .star
      (.float ⟨⟨kind, "0.50", ⟨n + 11, n + 15⟩⟩, half⟩))))

/-- Kinds, places and values do not show. -/
theorem render_halving :
    (halving 0 .ident .nan).render = (halving 40 .illegal ⟨0⟩).render ∧
      (halving 0 .ident .nan).render = (halving 40 .ident .nan).render :=
  ⟨render_eq_of_relabel_eq.1 _ _ rfl, render_eq_of_relabel_eq.2 _ _ rfl⟩

end ScriptFrontend
