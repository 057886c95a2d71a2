import ScriptFrontend.Proofs.Tree.Leaves
import ScriptFrontend.Tree.Render

/-!
# Trees written out

`Tree.lexemes` writes a tree out token by token: every operator application in parentheses, no
braces around blocks and nothing between statements. `Tree.Legible` holds of the trees whose
rendering keeps these tokens apart: leaves and the words of declarations, returns and functions are
tokens of some source, and where no mark stands between two expressions one of them has brackets of
its own.
-/

namespace ScriptFrontend

/-- The parts with a comma between each two of them. -/
def commaSeparated (parts : List (List Lexeme)) : List Lexeme :=
  [Lexeme.mark .comma].intercalate parts

mutual

def Statement.lexemes : Statement → List Lexeme
  | .var token name value =>
    token.lexeme :: name.token.lexeme :: .operator .assign ::
      ((match value with | none => [] | some e => e.lexemes) ++ [.mark .semicolon])
  | .ret token value =>
    token.lexeme :: ((match value with | none => [] | some e => e.lexemes) ++ [.mark .semicolon])
  | .expression _ body => match body with | none => [] | some e => e.lexemes
  | .block body => body.lexemes

def Block.lexemes : Block → List Lexeme
  | .mk _ statements => (statementLexemes statements).flatten

def Expression.lexemes : Expression → List Lexeme
  | .identifier leaf => [leaf.token.lexeme]
  | .integer leaf => [leaf.token.lexeme]
  | .float leaf => [leaf.token.lexeme]
  | .string leaf => [leaf.token.lexeme]
  | .boolean leaf => [leaf.token.lexeme]
  | .prefixOp _ operator right =>
    .mark .openParen :: .operator operator :: (right.lexemes ++ [.mark .closeParen])
  | .infixOp _ left operator right =>
    .mark .openParen :: (left.lexemes ++ .operator operator ::
      (right.lexemes ++ [.mark .closeParen]))
  | .ifElse _ condition consequence alternative =>
    .keyword .ifKw :: (condition.lexemes ++ (consequence.lexemes ++
      (match alternative with | none => [] | some b => .keyword .elseKw :: b.lexemes)))
  | .forLoop _ condition body => .keyword .forKw :: (condition.lexemes ++ body.lexemes)
  | .function token parameters body =>
    token.lexeme :: .mark .openParen ::
      (commaSeparated (parameters.map fun p => [p.token.lexeme]) ++ .mark .closeParen ::
        body.lexemes)
  | .call _ callee arguments =>
    callee.lexemes ++ .mark .openParen ::
      (commaSeparated (expressionLexemes arguments) ++ [.mark .closeParen])
  | .array _ elements =>
    .mark .openBracket :: (commaSeparated (expressionLexemes elements) ++ [.mark .closeBracket])
  | .hash _ pairs =>
    .mark .openBrace :: (commaSeparated (pairLexemes pairs) ++ [.mark .closeBrace])
  | .index _ left index =>
    .mark .openParen :: (left.lexemes ++ .mark .openBracket ::
      (index.lexemes ++ [.mark .closeBracket, .mark .closeParen]))

def statementLexemes : List Statement → List (List Lexeme)
  | [] => []
  | s :: rest => s.lexemes :: statementLexemes rest

def expressionLexemes : List Expression → List (List Lexeme)
  | [] => []
  | e :: rest => e.lexemes :: expressionLexemes rest

def pairLexemes : List (Expression × Expression) → List (List Lexeme)
  | [] => []
  | (key, value) :: rest => (key.lexemes ++ .mark .colon :: value.lexemes) :: pairLexemes rest

end

theorem statementLexemes_eq_map (l : List Statement) :
    statementLexemes l = l.map Statement.lexemes := by
  induction l with
  | nil => simp [statementLexemes]
  | cons s rest ih => simp [statementLexemes, ih]

theorem expressionLexemes_eq_map (l : List Expression) :
    expressionLexemes l = l.map Expression.lexemes := by
  induction l with
  | nil => simp [expressionLexemes]
  | cons e rest ih => simp [expressionLexemes, ih]

theorem pairLexemes_eq_map (l : List (Expression × Expression)) :
    pairLexemes l = l.map fun p => p.1.lexemes ++ .mark .colon :: p.2.lexemes := by
  induction l with
  | nil => simp [pairLexemes]
  | cons p rest ih => simp [pairLexemes, ih]

def Program.lexemes (p : Program) : List Lexeme := (p.statements.map Statement.lexemes).flatten

def Tree.lexemes : Tree → List Lexeme
  | program p => p.lexemes
  | statement s => s.lexemes
  | expression e => e.lexemes

/-! ## Optional children

A missing child shows in no way. These equations hold by cases only, since the recursion on a child
goes through its `Option`.
-/

section

variable {token : Token}

theorem Statement.render_var (name : Leaf String) (value : Option Expression) :
    (var token name value).render =
      token.literal ++ " " ++ name.value ++ " = " ++ value.elim "" Expression.render ++ ";" := by
  cases value <;> rfl

theorem Statement.render_ret (value : Option Expression) :
    (ret token value).render = token.literal ++ " " ++ value.elim "" Expression.render ++ ";" := by
  cases value <;> rfl

theorem Statement.render_expression (body : Option Expression) :
    (expression token body).render = body.elim "" Expression.render := by
  cases body <;> rfl

theorem Expression.render_ifElse (condition : Expression) (consequence : Block)
    (alternative : Option Block) :
    (ifElse token condition consequence alternative).render =
      "if" ++ condition.render ++ " " ++ consequence.render ++
        alternative.elim "" fun b => "else " ++ b.render := by
  cases alternative <;> rfl

theorem Statement.lexemes_var (name : Leaf String) (value : Option Expression) :
    (var token name value).lexemes = token.lexeme :: name.token.lexeme :: .operator .assign ::
      (value.elim [] Expression.lexemes ++ [.mark .semicolon]) := by
  cases value <;> rfl

theorem Statement.lexemes_ret (value : Option Expression) :
    (ret token value).lexemes =
      token.lexeme :: (value.elim [] Expression.lexemes ++ [.mark .semicolon]) := by
  cases value <;> rfl

theorem Statement.lexemes_expression (body : Option Expression) :
    (expression token body).lexemes = body.elim [] Expression.lexemes := by
  cases body <;> rfl

theorem Expression.lexemes_ifElse (condition : Expression) (consequence : Block)
    (alternative : Option Block) :
    (ifElse token condition consequence alternative).lexemes =
      .keyword .ifKw :: (condition.lexemes ++ (consequence.lexemes ++
        alternative.elim [] fun b => .keyword .elseKw :: b.lexemes)) := by
  cases alternative <;> rfl

end

/-! ## Trees that can be read back -/

/-- The expression begins and ends with a bracket of its own. -/
def Expression.isDelimited : Expression → Bool
  | .prefixOp _ _ _ | .infixOp _ _ _ _ | .array _ _ | .hash _ _ | .index _ _ _ => true
  | _ => false

inductive Tree.Legible : Tree → Prop where
  | program {p : Program} (h : ∀ s ∈ p.statements, Legible (.statement s)) : Legible (.program p)
  | var {token : Token} {name : Leaf String} {value : Option Expression}
      (htoken : token.Scanned) (hkind : token.kind = .keyword .varKw)
      (hname : name.Scanned Leaf.identifierOfToken)
      (hvalue : ∀ e ∈ value, Legible (.expression e)) : Legible (.statement (.var token name value))
  | ret {token : Token} {value : Option Expression}
      (htoken : token.Scanned) (hkind : token.kind = .keyword .returnKw)
      (hvalue : ∀ e ∈ value, Legible (.expression e)) : Legible (.statement (.ret token value))
  | expression {token : Token} {body : Option Expression}
      (hdelimited : ∀ e ∈ body, e.isDelimited = true)
      (hbody : ∀ e ∈ body, Legible (.expression e)) : Legible (.statement (.expression token body))
  | block {token : Token} {statements : List Statement}
      (h : ∀ s ∈ statements, Legible (.statement s)) :
      Legible (.statement (.block (.mk token statements)))
  | identifier {leaf : Leaf String} (h : leaf.Scanned Leaf.identifierOfToken) :
      Legible (.expression (.identifier leaf))
  | integer {leaf : Leaf Int64} (h : leaf.Scanned Leaf.integerOfToken) :
      Legible (.expression (.integer leaf))
  | float {leaf : Leaf Number.Binary64} (h : leaf.Scanned Leaf.floatOfToken) :
      Legible (.expression (.float leaf))
  | boolean {leaf : Leaf Bool} (h : leaf.Scanned Leaf.booleanOfToken) :
      Legible (.expression (.boolean leaf))
  | prefixOp {token : Token} {operator : Operator} {right : Expression}
      (hright : Legible (.expression right)) :
      Legible (.expression (.prefixOp token operator right))
  | infixOp {token : Token} {left right : Expression} {operator : Operator}
      (hleft : Legible (.expression left)) (hright : Legible (.expression right)) :
      Legible (.expression (.infixOp token left operator right))
  | ifElse {token : Token} {condition : Expression} {consequence : Block}
      {alternative : Option Block} (hdelimited : condition.isDelimited = true)
      (hcondition : Legible (.expression condition))
      (hconsequence : Legible (.statement (.block consequence)))
      (halternative : ∀ b ∈ alternative, Legible (.statement (.block b))) :
      Legible (.expression (.ifElse token condition consequence alternative))
  | forLoop {token : Token} {condition : Expression} {body : Block}
      (hdelimited : condition.isDelimited = true) (hcondition : Legible (.expression condition))
      (hbody : Legible (.statement (.block body))) :
      Legible (.expression (.forLoop token condition body))
  | function {token : Token} {parameters : List (Leaf String)} {body : Block}
      (htoken : token.Scanned) (hkind : token.kind = .keyword .fnKw)
      (hparameters : ∀ p ∈ parameters, p.Scanned Leaf.identifierOfToken)
      (hbody : Legible (.statement (.block body))) :
      Legible (.expression (.function token parameters body))
  | call {token : Token} {callee : Expression} {arguments : List Expression}
      (hcallee : Legible (.expression callee))
      (harguments : ∀ e ∈ arguments, Legible (.expression e)) :
      Legible (.expression (.call token callee arguments))
  | array {token : Token} {elements : List Expression}
      (helements : ∀ e ∈ elements, Legible (.expression e)) :
      Legible (.expression (.array token elements))
  | hash {token : Token} {pairs : List (Expression × Expression)}
      (hkeys : ∀ p ∈ pairs, Legible (.expression p.1))
      (hvalues : ∀ p ∈ pairs, Legible (.expression p.2)) :
      Legible (.expression (.hash token pairs))
  | index {token : Token} {left index : Expression} (hleft : Legible (.expression left))
      (hindex : Legible (.expression index)) : Legible (.expression (.index token left index))

end ScriptFrontend
