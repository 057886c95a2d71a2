import ScriptFrontend.Proofs.Tree.Written

/-!
# Renderings spell their trees

The rendering of a legible tree is lexed without a fault into the tree written out token by token
(`lex_render`). A piece of a rendering spells its part of the tree in front of all that comes after
it (`Tree.Legible.spells`). Only leaves can grow at their end, so they want something after them
that goes on with no word and no number (`Breaks`); what is closed by a mark goes anywhere. At its
front an expression is safe after an operator, since it does not begin with `=`
(`head?_render_append`).
-/

namespace ScriptFrontend

variable {rest : List Char}

theorem Leaf.Scanned.spells_identifier {leaf : Leaf String} (h : leaf.Scanned identifierOfToken)
    (hrest : Breaks rest) : Spells leaf.value.toList [leaf.token.lexeme] rest := by
  rw [h.value_eq]
  exact h.legible_identifier.spells hrest

theorem Spells.keyword (k : Keyword) (hrest : Breaks rest) :
    Spells k.spelling.toList [.keyword k] rest := by
  have hall : k.spelling.toList.all isWordChar = true := by cases k <;> rfl
  have hne : k.spelling.toList ≠ [] := by cases k <;> simp [Keyword.spelling]
  have hrun : MaximalRun isWordChar k.spelling.toList rest.head? :=
    ⟨hne, List.all_eq_true.mp hall, fun c hc => (hrest c hc).1⟩
  exact Spells.lexeme (l := .keyword k) ⟨hrun, .inl (String.ofList_toList)⟩ fun _ => rfl

theorem Spells.elseWord : Spells "else ".toList [.keyword .elseKw] rest :=
  .append (.keyword .elseKw (.cons (by decide) _)) .blank

/-! ## Parts in a row -/

namespace Spells

variable {α : Type} {l : List α} {g : α → List Lexeme}

theorem join {f : α → String} (h : ∀ a ∈ l, ∀ rest, Spells (f a).toList (g a) rest)
    (rest : List Char) : Spells (String.join (l.map f)).toList (l.map g).flatten rest := by
  rw [String.toList_join]
  induction l with
  | nil => exact nil
  | cons a l ih =>
    rw [List.map_cons, List.flatMap_cons, List.map_cons, List.flatten_cons]
    refine (h a List.mem_cons_self _).append (ih fun b hb => ?_)
    exact h b (List.mem_cons_of_mem a hb)

theorem comma : Spells ", ".toList [.mark .comma] rest := (mark .comma).append blank

/-- Each part stands in front of a comma or of what comes after the last one. -/
theorem commas {f : α → String}
    (h : ∀ a ∈ l, ∀ rest, Breaks rest → Spells (f a).toList (g a) rest) (hrest : Breaks rest) :
    Spells (", ".intercalate (l.map f)).toList (commaSeparated (l.map g)) rest := by
  rw [String.toList_intercalate, commaSeparated]
  induction l with
  | nil => exact nil
  | cons a l ih =>
    have hl := ih fun b hb => h b (List.mem_cons_of_mem a hb)
    cases l with
    | nil => simpa using h a List.mem_cons_self rest hrest
    | cons b l =>
      simp only [List.map_cons, List.intercalate_cons_cons, List.append_assoc] at hl ⊢
      exact (h a List.mem_cons_self _ (.cons (by decide) _)).append (comma.append hl)

theorem assign : Spells " = ".toList [.operator .assign] rest := spaced .assign nil

theorem option {value : Option α} {f : α → String}
    (h : ∀ a ∈ value, Spells (f a).toList (g a) rest) :
    Spells (value.elim "" f).toList (value.elim [] g) rest := by
  cases value with
  | none => exact nil
  | some a => exact h a rfl

end Spells

/-! ## The front of an expression -/

/-- Each form of expression begins with a leaf, a keyword or a bracket. -/
theorem Expression.head?_render :
    ∀ e : Expression, Tree.Legible (.expression e) → ∃ c ∈ e.render.toList.head?, c ≠ '='
  | .identifier leaf, .identifier h => by
    rw [Expression.render, h.value_eq]
    exact h.legible_identifier.head?_literal
  | .integer leaf, .integer h => h.legible_integer.head?_literal
  | .float leaf, .float h => h.legible_float.head?_literal
  | .boolean leaf, .boolean h => h.legible_boolean.head?_literal
  | .function token parameters body, .function htoken hkind _ _ => by
    obtain ⟨c, hc, hne⟩ := (htoken.legible_keyword hkind).head?_literal
    refine ⟨c, ?_, hne⟩
    simp [Expression.render, Option.mem_def.mp hc]
  | .call token callee arguments, .call hcallee _ => by
    obtain ⟨c, hc, hne⟩ := head?_render callee hcallee
    refine ⟨c, ?_, hne⟩
    simp [Expression.render, Option.mem_def.mp hc]
  | .prefixOp _ _ _, _ => ⟨'(', by simp [Expression.render], by decide⟩
  | .infixOp _ _ _ _, _ => ⟨'(', by simp [Expression.render], by decide⟩
  | .ifElse _ _ _ _, _ => ⟨'i', by simp [Expression.render_ifElse], by decide⟩
  | .forLoop _ _ _, _ => ⟨'f', by simp [Expression.render], by decide⟩
  | .array _ _, _ => ⟨'[', by simp [Expression.render], by decide⟩
  | .hash _ _, _ => ⟨'\x7b', by simp [Expression.render], by decide⟩
  | .index _ _ _, _ => ⟨'(', by simp [Expression.render], by decide⟩

theorem head?_render_append {e : Expression} (h : Tree.Legible (.expression e))
    (cs rest : List Char) : (e.render.toList ++ cs ++ rest).head? ≠ some '=' := by
  obtain ⟨c, hc, hne⟩ := e.head?_render h
  rw [List.append_assoc, List.head?_append, Option.mem_def.mp hc]
  simpa using hne

/-- A delimited expression begins with a bracket. -/
theorem breaks_render_append {e : Expression} (h : e.isDelimited = true) (cs rest : List Char) :
    Breaks (e.render.toList ++ cs ++ rest) := by
  have hbracket : ∃ c ∈ e.render.toList.head?, c ∈ markChars := by
    cases e with
    | prefixOp _ _ _ => exact ⟨'(', by simp [Expression.render], by decide⟩
    | infixOp _ _ _ _ => exact ⟨'(', by simp [Expression.render], by decide⟩
    | array _ _ => exact ⟨'[', by simp [Expression.render], by decide⟩
    | hash _ _ => exact ⟨'\x7b', by simp [Expression.render], by decide⟩
    | index _ _ _ => exact ⟨'(', by simp [Expression.render], by decide⟩
    | _ => cases h
  obtain ⟨c, hc, hmark⟩ := hbracket
  obtain ⟨text, htext⟩ := List.head?_eq_some_iff.mp hc
  have hall : markChars.all (fun c => !isWordChar c && !isNumberChar c) = true := by decide
  rw [htext]
  exact .cons (by simpa using List.all_eq_true.mp hall c hmark) _

/-! ## Trees -/

/-- What comes after the tree cannot change it: it ends with a mark, or there is nothing of it. -/
def Tree.isClosed : Tree → Bool
  | expression e => e.isDelimited
  | _ => true

theorem Tree.Legible.spells {t : Tree} (h : t.Legible) :
    ∀ rest, t.isClosed = true ∨ Breaks rest → Spells t.render.toList t.lexemes rest := by
  -- Each case takes its text apart from the left, and every piece but the last one stands in front
  -- of text that begins with a character known from the form of the tree.
  induction h with
  | program h ih =>
    intro rest _
    exact .join (fun s hs rest => ih s hs rest (.inl rfl)) rest
  | var htoken hkind hname hvalue ihvalue =>
    intro rest _
    simp only [Tree.render, Tree.lexemes, Statement.render_var, Statement.lexemes_var,
      String.toList_append, List.append_assoc]
    refine .cons ((htoken.legible_keyword hkind).spells (.cons (by decide) _)) (.skip ?_)
    refine .cons (hname.spells_identifier (.cons (by decide) _)) (.cons .assign ?_)
    refine .append (.option fun e he => ?_) (.mark .semicolon)
    exact ihvalue e he _ (.inr (.cons (by decide) _))
  | ret htoken hkind hvalue ihvalue =>
    intro rest _
    simp only [Tree.render, Tree.lexemes, Statement.render_ret, Statement.lexemes_ret,
      String.toList_append, List.append_assoc]
    refine .cons ((htoken.legible_keyword hkind).spells (.cons (by decide) _)) (.skip ?_)
    refine .append (.option fun e he => ?_) (.mark .semicolon)
    exact ihvalue e he _ (.inr (.cons (by decide) _))
  | expression hdelimited hbody ihbody =>
    intro rest _
    simp only [Tree.render, Tree.lexemes, Statement.render_expression,
      Statement.lexemes_expression]
    exact .option fun e he => ihbody e he rest (.inl (hdelimited e he))
  | @block token statements h ih =>
    intro rest _
    simp only [Tree.render, Tree.lexemes, Statement.render, Statement.lexemes, Block.render,
      Block.lexemes, renderStatements_eq_map, statementLexemes_eq_map]
    exact .join (fun s hs rest => ih s hs rest (.inl rfl)) rest
  | identifier h =>
    intro rest hrest
    exact h.spells_identifier (hrest.resolve_left Bool.false_ne_true)
  | integer h =>
    intro rest hrest
    exact h.legible_integer.spells (hrest.resolve_left Bool.false_ne_true)
  | float h =>
    intro rest hrest
    exact h.legible_float.spells (hrest.resolve_left Bool.false_ne_true)
  | boolean h =>
    intro rest hrest
    exact h.legible_boolean.spells (hrest.resolve_left Bool.false_ne_true)
  | @prefixOp token operator right hright ihright =>
    intro rest _
    simp only [Tree.render, Tree.lexemes, Expression.render, Expression.lexemes,
      String.toList_append, List.append_assoc]
    refine .cons (.mark .openParen) (.cons (.operator operator (head?_render_append hright _ _)) ?_)
    exact .append (ihright _ (.inr (.cons (by decide) _))) (.mark .closeParen)
  | @infixOp token left right operator hleft hright ihleft ihright =>
    intro rest _
    simp only [Tree.render, Tree.lexemes, Expression.render, Expression.lexemes,
      String.toList_append, List.append_assoc]
    refine .cons (.mark .openParen) (.append (ihleft _ (.inr (.cons (by decide) _))) ?_)
    refine .spaced operator ?_
    exact .append (ihright _ (.inr (.cons (by decide) _))) (.mark .closeParen)
  | ifElse hdelimited hcondition hconsequence halternative ihcondition ihconsequence
      ihalternative =>
    intro rest _
    simp only [Tree.render, Tree.lexemes, Expression.render_ifElse, Expression.lexemes_ifElse,
      String.toList_append, List.append_assoc]
    refine .cons (.keyword .ifKw (breaks_render_append hdelimited _ _)) ?_
    refine .append (ihcondition _ (.inl hdelimited)) (.skip ?_)
    refine .append (ihconsequence _ (.inl rfl)) (.option fun b hb => ?_)
    rw [String.toList_append]
    exact .cons .elseWord (ihalternative b hb rest (.inl rfl))
  | forLoop hdelimited hcondition hbody ihcondition ihbody =>
    intro rest _
    simp only [Tree.render, Tree.lexemes, Expression.render, Expression.lexemes,
      String.toList_append, List.append_assoc]
    refine .cons (.keyword .forKw (breaks_render_append hdelimited _ _)) ?_
    exact .append (ihcondition _ (.inl hdelimited)) (.skip (ihbody rest (.inl rfl)))
  | function htoken hkind hparameters hbody ihbody =>
    intro rest _
    simp only [Tree.render, Tree.lexemes, Expression.render, Expression.lexemes,
      String.toList_append, List.append_assoc]
    refine .cons ((htoken.legible_keyword hkind).spells (.cons (by decide) _)) ?_
    refine .cons (.mark .openParen) ?_
    refine .append (.commas (fun p hp rest hrest => ?_) (.cons (by decide) _)) ?_
    · exact (hparameters p hp).spells_identifier hrest
    · exact .cons (.mark .closeParen) (ihbody rest (.inl rfl))
  | call hcallee harguments ihcallee iharguments =>
    intro rest _
    simp only [Tree.render, Tree.lexemes, Expression.render, Expression.lexemes,
      renderExpressions_eq_map, expressionLexemes_eq_map, String.toList_append, List.append_assoc]
    refine .append (ihcallee _ (.inr (.cons (by decide) _))) (.cons (.mark .openParen) ?_)
    refine .append (.commas (fun e he rest hrest => ?_) (.cons (by decide) _)) (.mark .closeParen)
    exact iharguments e he rest (.inr hrest)
  | array helements ihelements =>
    intro rest _
    simp only [Tree.render, Tree.lexemes, Expression.render, Expression.lexemes,
      renderExpressions_eq_map, expressionLexemes_eq_map, String.toList_append, List.append_assoc]
    refine .cons (.mark .openBracket) ?_
    refine .append (.commas (fun e he rest hrest => ?_) (.cons (by decide) _))
      (.mark .closeBracket)
    exact ihelements e he rest (.inr hrest)
  | hash hkeys hvalues ihkeys ihvalues =>
    intro rest _
    simp only [Tree.render, Tree.lexemes, Expression.render, Expression.lexemes,
      renderPairs_eq_map, pairLexemes_eq_map, String.toList_append, List.append_assoc]
    refine .cons (.mark .openBrace) ?_
    refine .append (.commas (fun p hp rest hrest => ?_) (.cons (by decide) _))
      (.mark .closeBrace)
    simp only [String.toList_append, List.append_assoc]
    refine .append (ihkeys p hp _ (.inr (.cons (by decide) _))) ?_
    exact .cons (.mark .colon) (ihvalues p hp rest (.inr hrest))
  | index hleft hindex ihleft ihindex =>
    intro rest _
    simp only [Tree.render, Tree.lexemes, Expression.render, Expression.lexemes,
      String.toList_append, List.append_assoc]
    refine .cons (.mark .openParen) ?_
    refine .append (ihleft _ (.inr (.cons (by decide) _))) (.cons (.mark .openBracket) ?_)
    refine .append (ihindex _ (.inr (.cons (by decide) _))) ?_
    exact .cons (.mark .closeBracket) (.mark .closeParen)

theorem lex_render {t : Tree} (h : t.Legible) :
    ∃ tokens, lex t.render = .ok tokens ∧ tokens.map Token.lexeme = t.lexemes ++ [.eof] := by
  have hend : Breaks [] := fun _ hc => nomatch hc
  exact lex_of_spells (h.spells [] (.inr hend))

/-- A return in one branch of a condition, and an element of what it negates in the other. -/
def branching : Tree :=
  let x : Expression := .identifier ⟨⟨.ident, "x", ⟨0, 1⟩⟩, "x"⟩
  let one : Expression := .integer ⟨⟨.int, "1", ⟨0, 1⟩⟩, 1⟩
  .expression (.ifElse (.eof 0) (.prefixOp (.eof 0) .bang x)
    (.mk (.eof 0) [.ret ⟨.keyword .returnKw, "return", ⟨0, 6⟩⟩ none])
    (some (.mk (.eof 0) [.expression (.eof 0) (some (.index (.eof 0) x one))])))

theorem lex_render_branching :
    branching.Legible ∧ branching.render = "if(!x) return ;else (x[1])" ∧
      ∃ tokens, lex branching.render = .ok tokens ∧
        tokens.map Token.lexeme = branching.lexemes ++ [.eof] := by
  have hx : Tree.Legible (.expression (.identifier ⟨⟨.ident, "x", ⟨0, 1⟩⟩, "x"⟩)) :=
    .identifier ⟨⟨.ident, "x", ⟨0, 1⟩⟩, ⟨"x", by decide +kernel⟩, rfl⟩
  have hone : Tree.Legible (.expression (.integer ⟨⟨.int, "1", ⟨0, 1⟩⟩, 1⟩)) :=
    .integer ⟨⟨.int, "1", ⟨0, 1⟩⟩, ⟨"1", by decide +kernel⟩, rfl⟩
  have hreturn : Tree.Legible (.statement
      (.ret ⟨.keyword .returnKw, "return", ⟨0, 6⟩⟩ none)) :=
    .ret ⟨"return", by decide +kernel⟩ rfl fun _ he => nomatch he
  have hlegible : branching.Legible := by
    refine .ifElse rfl (.prefixOp hx) (.block fun s hs => ?_) fun b hb => ?_
    · obtain rfl := List.mem_singleton.mp hs
      exact hreturn
    · cases hb
      refine .block fun s hs => ?_
      obtain rfl := List.mem_singleton.mp hs
      refine .expression (fun e he => ?_) fun e he => ?_
      · cases he
        rfl
      · cases he
        exact .index hx hone
  exact ⟨hlegible, by decide, lex_render hlegible⟩

end ScriptFrontend
