import ScriptFrontend.Proofs.Tree.Reader
import ScriptFrontend.Proofs.Tree.Rendering

/-!
# Renderings that tell their trees

Renderings leave out braces, quotes and the ends of expression statements, so they do not tell all
trees apart. `Tree.Plain` holds of programs without conditions, loops, functions, blocks, strings
and expression statements. Such a tree is legible, so its rendering tells its lexemes, and the
reader gets the tree back from these, apart from the tokens of its nodes (`Tree.Plain.reads`). Two
plain programs, or expressions, with one rendering are therefore the same (`render_unambiguous`).
-/

namespace ScriptFrontend

inductive Tree.Plain : Tree → Prop where
  | program {p : Program} (h : ∀ s ∈ p.statements, Plain (.statement s)) : Plain (.program p)
  | var {token : Token} {name : Leaf String} {value : Option Expression}
      (htoken : token.Scanned) (hkind : token.kind = .keyword .varKw)
      (hname : name.Scanned Leaf.identifierOfToken)
      (hvalue : ∀ e ∈ value, Plain (.expression e)) : Plain (.statement (.var token name value))
  | ret {token : Token} {value : Option Expression}
      (htoken : token.Scanned) (hkind : token.kind = .keyword .returnKw)
      (hvalue : ∀ e ∈ value, Plain (.expression e)) : Plain (.statement (.ret token value))
  | identifier {leaf : Leaf String} (h : leaf.Scanned Leaf.identifierOfToken) :
      Plain (.expression (.identifier leaf))
  | integer {leaf : Leaf Int64} (h : leaf.Scanned Leaf.integerOfToken) :
      Plain (.expression (.integer leaf))
  | float {leaf : Leaf Number.Binary64} (h : leaf.Scanned Leaf.floatOfToken) :
      Plain (.expression (.float leaf))
  | boolean {leaf : Leaf Bool} (h : leaf.Scanned Leaf.booleanOfToken) :
      Plain (.expression (.boolean leaf))
  | prefixOp {token : Token} {operator : Operator} {right : Expression}
      (hright : Plain (.expression right)) : Plain (.expression (.prefixOp token operator right))
  | infixOp {token : Token} {left right : Expression} {operator : Operator}
      (hleft : Plain (.expression left)) (hright : Plain (.expression right)) :
      Plain (.expression (.infixOp token left operator right))
  | call {token : Token} {callee : Expression} {arguments : List Expression}
      (hcallee : Plain (.expression callee))
      (harguments : ∀ e ∈ arguments, Plain (.expression e)) :
      Plain (.expression (.call token callee arguments))
  | array {token : Token} {elements : List Expression}
      (helements : ∀ e ∈ elements, Plain (.expression e)) :
      Plain (.expression (.array token elements))
  | hash {token : Token} {pairs : List (Expression × Expression)}
      (hkeys : ∀ p ∈ pairs, Plain (.expression p.1))
      (hvalues : ∀ p ∈ pairs, Plain (.expression p.2)) : Plain (.expression (.hash token pairs))
  | index {token : Token} {left index : Expression} (hleft : Plain (.expression left))
      (hindex : Plain (.expression index)) : Plain (.expression (.index token left index))

/-! ## From the rendering to the lexemes -/

theorem Tree.Plain.legible {t : Tree} (h : t.Plain) : t.Legible := by
  induction h with
  | program _ ih => exact .program ih
  | var htoken hkind hname _ ih => exact .var htoken hkind hname ih
  | ret htoken hkind _ ih => exact .ret htoken hkind ih
  | identifier h => exact .identifier h
  | integer h => exact .integer h
  | float h => exact .float h
  | boolean h => exact .boolean h
  | prefixOp _ ih => exact .prefixOp ih
  | infixOp _ _ ihleft ihright => exact .infixOp ihleft ihright
  | call _ _ ihcallee iharguments => exact .call ihcallee iharguments
  | array _ ih => exact .array ih
  | hash _ _ ihkeys ihvalues => exact .hash ihkeys ihvalues
  | index _ _ ihleft ihindex => exact .index ihleft ihindex

theorem Tree.Legible.lexemes_inj {t u : Tree} (ht : t.Legible) (hu : u.Legible)
    (h : t.render = u.render) : t.lexemes = u.lexemes := by
  have hend : Breaks [] := fun _ hc => nomatch hc
  have hspelled := (ht.spells [] (.inr hend)).lexemes_eq
  rw [h, (hu.spells [] (.inr hend)).lexemes_eq] at hspelled
  exact (List.append_cancel_right hspelled).symm

/-! ## From the lexemes to the tree -/

/-- What the reader makes of the tree: an item, or one for each statement of a program. -/
def Tree.items : Tree → Frame
  | program p => (p.forget.statements.map Item.statement).reverse
  | statement s => [.statement s.forget]
  | expression e => [.expression e.forget]

namespace Reads

theorem statements {l : List Statement} (h : ∀ s ∈ l, Reads s.lexemes [.statement s.forget]) :
    Reads (l.map Statement.lexemes).flatten
      ((l.map Statement.forget).map Item.statement).reverse := by
  induction l with
  | nil => exact nil
  | cons s l ih =>
    intro frame stack hframe
    have hl := ih (fun r hr => h r (List.mem_cons_of_mem s hr)) (.statement s.forget :: frame) stack
      (ready_statement _ _)
    rw [List.map_cons, List.flatten_cons, List.foldl_append, h s List.mem_cons_self frame stack
      hframe, List.singleton_append, hl]
    simp

theorem option {value : Option Expression}
    (h : ∀ e ∈ value, Reads e.lexemes [.expression e.forget]) :
    Reads (value.elim [] Expression.lexemes) (value.elim [] fun e => [.expression e.forget]) := by
  cases value with
  | none => exact nil
  | some e => exact h e rfl

theorem expressions {l : List Expression} (h : ∀ e ∈ l, Reads e.lexemes [.expression e.forget]) :
    ∃ items, Reads (commaSeparated (expressionLexemes l)) items ∧
      expressionsOf items = forgetExpressions l := by
  obtain ⟨items, hitems, heq⟩ := commas h
  refine ⟨items, by rwa [expressionLexemes_eq_map], ?_⟩
  rw [heq, forgetExpressions_eq_map, List.map_eq_flatMap]
  rfl

theorem pairs {l : List (Expression × Expression)}
    (hkeys : ∀ p ∈ l, Reads p.1.lexemes [.expression p.1.forget])
    (hvalues : ∀ p ∈ l, Reads p.2.lexemes [.expression p.2.forget]) :
    ∃ items, Reads (commaSeparated (pairLexemes l)) items ∧
      pairUp (expressionsOf items) = forgetPairs l := by
  obtain ⟨items, hitems, heq⟩ := commas fun p hp =>
    (hkeys p hp).separated Lexeme.isSymbol_colon (hvalues p hp)
  refine ⟨items, by rwa [pairLexemes_eq_map], ?_⟩
  rw [heq, forgetPairs_eq_map]
  exact pairUp_flatMap (fun p => p.1.forget) (fun p => p.2.forget) l

end Reads

theorem Tree.Plain.reads {t : Tree} (h : t.Plain) : Reads t.lexemes t.items := by
  -- Where `Reads.group` and `Reads.applied` get `rfl`, the frame inside is known in full and the
  -- bracket's choice can be computed; frames of lists are known by their expressions only.
  induction h with
  | program h ih => exact .statements ih
  | @var token name value htoken hkind hname hvalue ihvalue =>
    have hname := Reads.leaf hname.leaf?_identifier
    have hassigned := hname.separated (Lexeme.isSymbol_operator .assign) (.option ihvalue)
    have hbegun := hassigned.afterSymbol (Token.isSymbol_keyword hkind (by decide) (by decide))
    rw [Tree.lexemes, Tree.items, Statement.lexemes_var, Statement.forget_var]
    refine hbegun.ended fun frame => ?_
    cases value <;> rfl
  | @ret token value htoken hkind hvalue ihvalue =>
    have hbegun := (Reads.option ihvalue).afterSymbol
      (Token.isSymbol_keyword hkind (by decide) (by decide))
    rw [Tree.lexemes, Tree.items, Statement.lexemes_ret, Statement.forget_ret]
    refine hbegun.ended fun frame => ?_
    cases value <;> rfl
  | identifier h => exact .leaf h.leaf?_identifier
  | integer h => exact .leaf h.leaf?_integer
  | float h => exact .leaf h.leaf?_float
  | boolean h => exact .leaf h.leaf?_boolean
  | @prefixOp token operator right hright ihright =>
    exact .group .round (ihright.afterSymbol (Lexeme.isSymbol_operator operator)) rfl
  | @infixOp token left right operator hleft hright ihleft ihright =>
    have hinner := ihleft.separated (Lexeme.isSymbol_operator operator) ihright
    have hgroup := Reads.group .round hinner rfl
    rwa [List.append_assoc] at hgroup
  | call hcallee harguments ihcallee iharguments =>
    obtain ⟨items, hitems, heq⟩ := Reads.expressions iharguments
    refine .applied .round ihcallee hitems ?_
    rw [Bracket.apply, heq, Expression.forget]
  | array helements ihelements =>
    obtain ⟨items, hitems, heq⟩ := Reads.expressions ihelements
    refine .group .square hitems ?_
    rw [Bracket.group, heq, Expression.forget]
  | hash hkeys hvalues ihkeys ihvalues =>
    obtain ⟨items, hitems, heq⟩ := Reads.pairs ihkeys ihvalues
    refine .group .curly hitems ?_
    rw [Bracket.group, heq, Expression.forget]
  | index hleft hindex ihleft ihindex =>
    have hinner := Reads.applied .square ihleft ihindex rfl
    have hgroup := Reads.group .round hinner rfl
    rwa [List.append_assoc, List.cons_append, List.append_assoc] at hgroup

theorem Tree.Plain.items_inj {t u : Tree} (ht : t.Plain) (hu : u.Plain)
    (h : t.render = u.render) : t.items = u.items := by
  have hread := ht.reads [] [] ready_nil
  rw [ht.legible.lexemes_inj hu.legible h, hu.reads [] [] ready_nil] at hread
  simpa using hread.symm

theorem render_unambiguous :
    (∀ p q : Program, Tree.Plain (.program p) → Tree.Plain (.program q) →
      p.render = q.render → p.forget = q.forget) ∧
    ∀ e f : Expression, Tree.Plain (.expression e) → Tree.Plain (.expression f) →
      e.render = f.render → e.forget = f.forget := by
  constructor
  · intro p q hp hq h
    have hitems := List.reverse_inj.mp (hp.items_inj hq h)
    have hstatements := (List.map_inj_right fun _ _ => Item.statement.inj).mp hitems
    exact congrArg Program.mk hstatements
  · intro e f he hf h
    have hitems := he.items_inj hf h
    exact Item.expression.inj (List.head_eq_of_cons_eq hitems)

/-- `f((-1))` with each of its words `n` bytes into some source. -/
def calling (n : Nat) : Expression :=
  .call (.eof n) (.identifier ⟨⟨.ident, "f", ⟨n, n + 1⟩⟩, "f"⟩)
    [.prefixOp (.eof n) .minus (.integer ⟨⟨.int, "1", ⟨n, n + 1⟩⟩, 1⟩)]

/-- `return f((-1));` likewise. -/
def returning (n : Nat) : Program :=
  ⟨[.ret ⟨.keyword .returnKw, "return", ⟨n, n + 6⟩⟩ (some (calling n))]⟩

theorem plain_calling {n : Nat} (hname : Token.Scanned ⟨.ident, "f", ⟨n, n + 1⟩⟩)
    (hone : Token.Scanned ⟨.int, "1", ⟨n, n + 1⟩⟩) : Tree.Plain (.expression (calling n)) := by
  refine .call (.identifier ⟨⟨.ident, "f", ⟨n, n + 1⟩⟩, hname, rfl⟩) fun e he => ?_
  obtain rfl := List.mem_singleton.mp he
  have hread : Number.readSigned64 "1" = .ok 1 := by decide
  exact .prefixOp (.integer ⟨_, hone, Leaf.integerOfToken_eq_ok_iff.mpr ⟨rfl, rfl, hread⟩⟩)

theorem plain_returning {n : Nat} (h : Tree.Plain (.expression (calling n)))
    (hreturn : Token.Scanned ⟨.keyword .returnKw, "return", ⟨n, n + 6⟩⟩) :
    Tree.Plain (.program (returning n)) := by
  refine .program fun s hs => ?_
  obtain rfl := List.mem_singleton.mp hs
  refine .ret hreturn rfl fun e he => ?_
  cases he
  exact h

/-- One program at two places in a source. -/
theorem forget_returning :
    returning 0 ≠ returning 1 ∧ (returning 0).forget = (returning 1).forget ∧
      (calling 0).forget = (calling 1).forget := by
  have hcalling : Tree.Plain (.expression (calling 0)) :=
    plain_calling ⟨"f", by decide +kernel⟩ ⟨"1", by decide +kernel⟩
  have hmoved : Tree.Plain (.expression (calling 1)) :=
    plain_calling ⟨" f", by decide +kernel⟩ ⟨" 1", by decide +kernel⟩
  refine ⟨by simp [returning], ?_, render_unambiguous.2 _ _ hcalling hmoved rfl⟩
  exact render_unambiguous.1 _ _ (plain_returning hcalling ⟨"return", by decide +kernel⟩)
    (plain_returning hmoved ⟨" return", by decide +kernel⟩) rfl

end ScriptFrontend
