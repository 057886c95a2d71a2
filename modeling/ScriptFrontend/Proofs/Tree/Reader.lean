import ScriptFrontend.Proofs.Tree.Forget
import ScriptFrontend.Proofs.Tree.Written

/-!
# Reading a tree back

The reader passes once over the lexemes of a tree that is written out. It keeps a stack of frames,
one for each open bracket, and on a frame what it has read since, the latest first. A closing
bracket makes an expression of its frame, and which one it is depends on what the frame holds and on
whether an expression stands right before the opening bracket, to be called or indexed.

`Reads ls items` says what the lexemes leave on a frame that has no such expression on top. It holds
of leaves and symbols (`Reads.leaf`, `Reads.afterSymbol`), goes over separators (`Reads.separated`,
`Reads.commas`) and into brackets (`Reads.group`, `Reads.applied`).
-/

namespace ScriptFrontend

/-- Something read: an expression or a statement in full, or a symbol or word between them. -/
inductive Item where
  | expression (e : Expression)
  | statement (s : Statement)
  | symbol (kind : TokenKind)

abbrev Frame := List Item

def Item.expression? : Item → Option Expression
  | expression e => some e
  | _ => none

/-- The expressions of the frame in the order of reading. -/
def expressionsOf (frame : Frame) : List Expression := frame.reverse.filterMap Item.expression?

theorem expressionsOf_append (xs ys : Frame) :
    expressionsOf (xs ++ ys) = expressionsOf ys ++ expressionsOf xs := by
  rw [expressionsOf, List.reverse_append, List.filterMap_append]
  rfl

/-- Takes keys and values in turn. -/
def pairUp : List Expression → List (Expression × Expression)
  | key :: value :: rest => (key, value) :: pairUp rest
  | _ => []

theorem pairUp_flatMap {α : Type} (f g : α → Expression) (l : List α) :
    pairUp (l.flatMap fun a => [f a, g a]) = l.map fun a => (f a, g a) := by
  induction l with
  | nil => rfl
  | cons a l ih =>
    rw [List.flatMap_cons, List.map_cons, ← ih]
    rfl

inductive Bracket where
  | round
  | square
  | curly

namespace Bracket

def opening : Bracket → Punctuation
  | round => .openParen
  | square => .openBracket
  | curly => .openBrace

def closing : Bracket → Punctuation
  | round => .closeParen
  | square => .closeBracket
  | curly => .closeBrace

/-- The expression that the brackets make by themselves of what is inside. -/
def group : Bracket → Frame → Option Expression
  | round, [.expression e] => some e
  | round, [.expression right, .symbol (.operator o)] => some (.prefixOp (.eof 0) o right)
  | round, [.expression right, .symbol (.operator o), .expression left] =>
    some (.infixOp (.eof 0) left o right)
  | round, _ => none
  | square, inner => some (.array (.eof 0) (expressionsOf inner))
  | curly, inner => some (.hash (.eof 0) (pairUp (expressionsOf inner)))

/-- The expression that they make right after another one. -/
def apply : Bracket → Expression → Frame → Option Expression
  | round, callee, inner => some (.call (.eof 0) callee (expressionsOf inner))
  | square, left, [.expression index] => some (.index (.eof 0) left index)
  | _, _, _ => none

/-- What the frame outside becomes when the bracket closes on the frame inside. -/
def close (b : Bracket) (inner : Frame) : Frame → Frame
  | .expression left :: frame =>
    ((b.apply left inner).map Item.expression).toList ++ frame
  | frame => ((b.group inner).map Item.expression).toList ++ frame

end Bracket

/-- What the frame becomes when a semicolon ends the statement on it. -/
def endStatement : Frame → Frame
  | .expression e :: .symbol (.operator .assign) :: .expression (.identifier name) ::
      .symbol (.keyword .varKw) :: frame => .statement (.var (.eof 0) name (some e)) :: frame
  | .symbol (.operator .assign) :: .expression (.identifier name) ::
      .symbol (.keyword .varKw) :: frame => .statement (.var (.eof 0) name none) :: frame
  | .expression e :: .symbol (.keyword .returnKw) :: frame =>
    .statement (.ret (.eof 0) (some e)) :: frame
  | .symbol (.keyword .returnKw) :: frame => .statement (.ret (.eof 0) none) :: frame
  | frame => frame

namespace Lexeme

/-- The leaf that a token with this lexeme gives, without its place. -/
def leaf? (l : Lexeme) : Option Expression :=
  let t : Token := ⟨l.kind, String.ofList l.literal, ⟨0, 0⟩⟩
  match l.kind with
  | .ident => (Leaf.identifierOfToken t).toOption.map .identifier
  | .int => (Leaf.integerOfToken t).toOption.map .integer
  | .float => (Leaf.floatOfToken t).toOption.map .float
  | .keyword _ => (Leaf.booleanOfToken t).toOption.map .boolean
  | _ => none

def item (l : Lexeme) : Item :=
  match l.leaf? with
  | some e => .expression e
  | none => .symbol l.kind

end Lexeme

/-- Reads one lexeme. -/
def readLexeme (stack : List Frame) (l : Lexeme) : List Frame :=
  match l.kind, stack with
  | .punctuation .openParen, _ => [] :: stack
  | .punctuation .openBracket, _ => [] :: stack
  | .punctuation .openBrace, _ => [] :: stack
  | .punctuation .closeParen, inner :: outer :: stack => Bracket.round.close inner outer :: stack
  | .punctuation .closeBracket, inner :: outer :: stack => Bracket.square.close inner outer :: stack
  | .punctuation .closeBrace, inner :: outer :: stack => Bracket.curly.close inner outer :: stack
  | .punctuation .semicolon, frame :: stack => endStatement frame :: stack
  | _, frame :: stack => (l.item :: frame) :: stack
  | _, [] => []

/-! ## Leaves -/

namespace Leaf.Scanned

theorem leaf?_identifier {leaf : Leaf String} (h : leaf.Scanned identifierOfToken) :
    leaf.token.lexeme.leaf? = some (.identifier leaf.forget) := by
  obtain ⟨t, -, hleaf⟩ := h
  obtain ⟨hkind, rfl⟩ := identifierOfToken_eq_ok_iff.mp hleaf
  simp [Lexeme.leaf?, Token.lexeme, hkind, identifierOfToken, Leaf.forget, Except.toOption]

theorem leaf?_integer {leaf : Leaf Int64} (h : leaf.Scanned integerOfToken) :
    leaf.token.lexeme.leaf? = some (.integer leaf.forget) := by
  obtain ⟨t, -, hleaf⟩ := h
  obtain ⟨hkind, rfl, hread⟩ := integerOfToken_eq_ok_iff.mp hleaf
  simp [Lexeme.leaf?, Token.lexeme, hkind, integerOfToken, hread, Leaf.forget, Except.toOption]

theorem leaf?_float {leaf : Leaf Number.Binary64} (h : leaf.Scanned floatOfToken) :
    leaf.token.lexeme.leaf? = some (.float leaf.forget) := by
  obtain ⟨t, -, hleaf⟩ := h
  obtain ⟨hkind, rfl, hread⟩ := floatOfToken_eq_ok_iff.mp hleaf
  simp [Lexeme.leaf?, Token.lexeme, hkind, floatOfToken, hread, Leaf.forget, Except.toOption]

theorem leaf?_boolean {leaf : Leaf Bool} (h : leaf.Scanned booleanOfToken) :
    leaf.token.lexeme.leaf? = some (.boolean leaf.forget) := by
  obtain ⟨t, -, hleaf⟩ := h
  obtain ⟨hkind, rfl⟩ := booleanOfToken_eq_ok_iff.mp hleaf
  obtain ⟨token, value⟩ := leaf
  cases value <;> simp_all [Lexeme.leaf?, Token.lexeme, keywordOfBool, booleanOfToken,
    Leaf.forget, Except.toOption]

end Leaf.Scanned

/-! ## One lexeme -/

/-- No expression stands on top of the frame, to be called or indexed. -/
def Ready (frame : Frame) : Prop := frame.head?.bind Item.expression? = none

theorem ready_nil : Ready [] := rfl

theorem ready_symbol (kind : TokenKind) (frame : Frame) : Ready (.symbol kind :: frame) := rfl

theorem ready_statement (s : Statement) (frame : Frame) : Ready (.statement s :: frame) := rfl

/-- The lexeme is read as a symbol of the kind. -/
def Lexeme.IsSymbol (l : Lexeme) (kind : TokenKind) : Prop :=
  ∀ frame stack, readLexeme (frame :: stack) l = (.symbol kind :: frame) :: stack

theorem Lexeme.isSymbol_operator (o : Operator) : (operator o).IsSymbol (.operator o) :=
  fun _ _ => rfl

theorem Lexeme.isSymbol_comma : (mark .comma).IsSymbol (.punctuation .comma) := fun _ _ => rfl

theorem Lexeme.isSymbol_colon : (mark .colon).IsSymbol (.punctuation .colon) := fun _ _ => rfl

section

variable {frame inner : Frame} {stack : List Frame} {e e' : Expression} {l : Lexeme} {b : Bracket}

theorem readLexeme_opening (b : Bracket) : readLexeme stack (.mark b.opening) = [] :: stack := by
  cases b <;> rfl

theorem readLexeme_closing (b : Bracket) :
    readLexeme (inner :: frame :: stack) (.mark b.closing) = b.close inner frame :: stack := by
  cases b <;> rfl

theorem readLexeme_item (h : ∀ p, l.kind ≠ .punctuation p) :
    readLexeme (frame :: stack) l = (l.item :: frame) :: stack := by
  unfold readLexeme
  split <;> simp_all

/-- Of the keywords only truth values are expressions. -/
theorem Token.isSymbol_keyword {t : Token} {k : Keyword} (hkind : t.kind = .keyword k)
    (htrue : k ≠ .trueKw) (hfalse : k ≠ .falseKw) : t.lexeme.IsSymbol (.keyword k) := by
  intro frame stack
  have hitem : t.lexeme.item = .symbol (.keyword k) := by
    cases k <;> simp_all [Lexeme.item, Lexeme.leaf?, lexeme, Leaf.booleanOfToken, Except.toOption]
  rw [readLexeme_item (by simp [lexeme, hkind]), hitem]

theorem Bracket.close_of_ready (hframe : Ready frame) (h : b.group inner = some e) :
    b.close inner frame = .expression e :: frame := by
  unfold close
  split
  next => cases hframe
  next => rw [h]; rfl

theorem Bracket.close_of_apply (h : b.apply e inner = some e') :
    b.close inner (.expression e :: frame) = .expression e' :: frame := by
  rw [close, h]
  rfl

end

/-! ## Many lexemes -/

/-- What the lexemes leave on a frame that is ready for an expression. -/
def Reads (ls : List Lexeme) (items : Frame) : Prop :=
  ∀ frame stack, Ready frame → ls.foldl readLexeme (frame :: stack) = (items ++ frame) :: stack

namespace Reads

variable {ls ms fs : List Lexeme} {items xs ys inner : Frame} {e e' : Expression} {l : Lexeme}
  {kind : TokenKind}

theorem nil : Reads [] [] := fun _ _ _ => rfl

theorem leaf (h : l.leaf? = some e) : Reads [l] [.expression e] := by
  intro frame stack _
  have hkind : ∀ p, l.kind ≠ .punctuation p := fun p hp => by
    rw [Lexeme.leaf?, hp] at h
    cases h
  rw [List.foldl_cons, readLexeme_item hkind, Lexeme.item, h]
  rfl

theorem afterSymbol (hl : l.IsSymbol kind) (h : Reads ls items) :
    Reads (l :: ls) (items ++ [.symbol kind]) := by
  intro frame stack _
  rw [List.foldl_cons, hl, h _ _ (ready_symbol kind frame), List.append_assoc,
    List.singleton_append]

theorem separated (ha : Reads ls xs) (hl : l.IsSymbol kind) (hb : Reads ms ys) :
    Reads (ls ++ l :: ms) (ys ++ .symbol kind :: xs) := by
  intro frame stack hframe
  rw [List.foldl_append, ha _ _ hframe, List.foldl_cons, hl, hb _ _ (ready_symbol kind _),
    List.append_assoc, List.cons_append]

/-- What is inside of brackets is read on a frame of its own. -/
theorem enclosed (b : Bracket) (h : Reads ls inner) (frame : Frame) (stack : List Frame) :
    (.mark b.opening :: (ls ++ [.mark b.closing])).foldl readLexeme (frame :: stack) =
      b.close inner frame :: stack := by
  rw [List.foldl_cons, readLexeme_opening, List.foldl_append, h [] _ ready_nil, List.append_nil,
    List.foldl_cons, readLexeme_closing, List.foldl_nil]

theorem group (b : Bracket) (h : Reads ls inner) (hgroup : b.group inner = some e) :
    Reads (.mark b.opening :: (ls ++ [.mark b.closing])) [.expression e] := by
  intro frame stack hframe
  rw [h.enclosed b, Bracket.close_of_ready hframe hgroup, List.singleton_append]

theorem applied (b : Bracket) (hf : Reads fs [.expression e]) (h : Reads ls inner)
    (happly : b.apply e inner = some e') :
    Reads (fs ++ .mark b.opening :: (ls ++ [.mark b.closing])) [.expression e'] := by
  intro frame stack hframe
  rw [List.foldl_append, hf _ _ hframe, List.singleton_append, h.enclosed b,
    Bracket.close_of_apply happly, List.singleton_append]

theorem ended {s : Statement} (h : Reads ls items)
    (hend : ∀ frame, endStatement (items ++ frame) = .statement s :: frame) :
    Reads (ls ++ [.mark .semicolon]) [.statement s] := by
  intro frame stack hframe
  rw [List.foldl_append, h _ _ hframe]
  show endStatement (items ++ frame) :: stack = _
  rw [hend]
  rfl

/-- The commas between the parts stay on the frame, but are no expressions. -/
theorem commas {α : Type} {l : List α} {g : α → List Lexeme} {f : α → Frame}
    (h : ∀ a ∈ l, Reads (g a) (f a)) :
    ∃ items, Reads (commaSeparated (l.map g)) items ∧
      expressionsOf items = l.flatMap fun a => expressionsOf (f a) := by
  induction l with
  | nil => exact ⟨[], nil, rfl⟩
  | cons a l ih =>
    have ha := h a List.mem_cons_self
    obtain ⟨items, hitems, hexpressions⟩ := ih fun b hb => h b (List.mem_cons_of_mem a hb)
    cases l with
    | nil =>
      refine ⟨f a, ?_, by simp⟩
      simpa [commaSeparated] using ha
    | cons b l =>
      refine ⟨items ++ .symbol (.punctuation .comma) :: f a, ?_, ?_⟩
      · have hall := ha.separated Lexeme.isSymbol_comma hitems
        simpa [commaSeparated, List.intercalate_cons_cons] using hall
      · rw [expressionsOf_append, hexpressions, List.flatMap_cons]
        simp [expressionsOf, Item.expression?]

end Reads

end ScriptFrontend
