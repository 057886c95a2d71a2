import ScriptFrontend.Proofs.Tokenize.Reading

/-!
# Tokens tile their source

`Tiling source tokens` says that the tokens account for every byte of the source: the spans are in
order and lie between characters, blanks fill the gaps, the gaps and the texts of the spans make
up the source, and each literal is the part of the source that its span promises. The tokens of a
source tile it (`tiling_tokenize`).
-/

namespace ScriptFrontend

open Text Cursor

/-- The places before the tokens, from `start` and from the end of each token. -/
def gaps (start : Nat) : List Token → List Span
  | [] => []
  | t :: ts => ⟨start, t.span.start⟩ :: gaps t.span.stop ts

/-- The gaps and the tokens in turn. -/
def pieces (start : Nat) : List Token → List Span
  | [] => []
  | t :: ts => ⟨start, t.span.start⟩ :: t.span :: pieces t.span.stop ts

/-- The place of the literal: of a string, what its quotes enclose. -/
def Token.literalSpan (t : Token) : Span :=
  match t.kind with
  | .string terminated => ⟨t.span.start + 1, t.span.stop - if terminated then 1 else 0⟩
  | _ => t.span

structure Tiling (source : String) (tokens : List Token) : Prop where
  /-- The last token is the end token, empty and at the end of the source, and the only one. -/
  ends : ∃ body, tokens = body ++ [⟨.eof, "", ⟨source.utf8ByteSize, source.utf8ByteSize⟩⟩] ∧
    ∀ t ∈ body, t.isEof = false
  nonempty : ∀ t ∈ tokens, t.isEof = false → t.span.start < t.span.stop
  inside : ∀ t ∈ tokens, t.span.stop ≤ source.utf8ByteSize
  boundaries : ∀ t ∈ tokens, String.Pos.Raw.IsValid source ⟨t.span.start⟩ ∧
    String.Pos.Raw.IsValid source ⟨t.span.stop⟩
  ordered : tokens.Pairwise fun t u => t.span.stop ≤ u.span.start
  gaps_blank : ∀ s ∈ gaps 0 tokens, ∃ gap, s.textIn? source = some gap ∧ Blank gap.toList
  pieces_join : ∃ texts, (pieces 0 tokens).mapM (·.textIn? source) = some texts ∧
    String.join texts = source
  literal : ∀ t ∈ tokens, (∀ b, t.kind ≠ .string b) → t.span.textIn? source = some t.literal
  quoted : ∀ t ∈ tokens, ∀ terminated, t.kind = .string terminated →
    t.span.textIn? source = some ("\"" ++ t.literal ++ if terminated then "\"" else "")
  /-- Every slice that becomes a literal is in range, in order and between characters. -/
  slices : ∀ t ∈ tokens, t.literalSpan.textIn? source = some t.literal

/-! ## One token -/

theorem Token.text_of_not_string {t : Token} (h : ∀ b, t.kind ≠ .string b) :
    t.text = t.literal := by
  rw [Token.text, TokenKind.enclose_of_not_string h, String.ofList_toList]

theorem Token.text_of_string {t : Token} {terminated : Bool} (h : t.kind = .string terminated) :
    t.text = "\"" ++ t.literal ++ if terminated then "\"" else "" := by
  apply String.toList_inj.mp
  cases terminated <;> simp [Token.text, h, TokenKind.enclose]

namespace Stands

variable {source : String} {t : Token} {before after : List Char} {l : Lexeme}

theorem span_eq {source : List Char} (h : Stands source t before l after) :
    t.span = ⟨byteLength before, byteLength (before ++ l.text)⟩ := by
  rw [h.token_eq, byteLength_append]
  rfl

theorem text_eq {source : List Char} (h : Stands source t before l after) :
    t.text = String.ofList l.text := by
  rw [h.token_eq, text_tokenAt]

theorem textIn? (h : Stands source.toList t before l after) :
    t.span.textIn? source = some t.text := by
  rw [h.span_eq, h.text_eq]
  exact Span.textIn?_append before l.text after h.source_eq

theorem start_lt_stop {source : List Char} (h : Stands source t before l after) :
    t.span.start < t.span.stop := by
  have := byteLength_pos_iff.mpr h.fits.text_ne_nil
  rw [h.span_eq, byteLength_append]
  dsimp only
  omega

theorem stop_le (h : Stands source.toList t before l after) :
    t.span.stop ≤ source.utf8ByteSize := by
  rw [h.span_eq, ← byteLength_toList, h.source_eq, byteLength_append _ after]
  exact Nat.le_add_right _ _

theorem literalSpan_textIn? (h : Stands source.toList t before l after) :
    t.literalSpan.textIn? source = some t.literal := by
  obtain ⟨kind, literal⟩ := l
  have hkind : t.kind = kind := by rw [h.token_eq]; rfl
  have hliteral : t.literal = String.ofList literal := by rw [h.token_eq]; rfl
  by_cases hstring : ∃ terminated, kind = .string terminated
  · obtain ⟨terminated, rfl⟩ := hstring
    have hsource : source.toList = before ++ ['\"'] ++ literal ++
        ((if terminated then ['\"'] else []) ++ after) := by
      rw [h.source_eq]
      cases terminated <;> simp [Lexeme.text, TokenKind.enclose]
    have hplace := Span.textIn?_append _ _ _ hsource
    have hquote : '\"'.utf8Size = 1 := rfl
    have hspan : t.literalSpan =
        ⟨byteLength (before ++ ['\"']), byteLength (before ++ ['\"'] ++ literal)⟩ := by
      rw [Token.literalSpan, hkind, h.span_eq]
      cases terminated
      · simp [Lexeme.text, TokenKind.enclose, hquote, Nat.add_comm]
      · simp [Lexeme.text, TokenKind.enclose, hquote]
        omega
    rw [hspan, hplace, hliteral]
  · have hne : ∀ b, t.kind ≠ .string b := fun b hb => hstring ⟨b, hkind ▸ hb⟩
    have hspan : t.literalSpan = t.span := by
      unfold Token.literalSpan
      split
      next b hb => exact absurd hb (hne b)
      next => rfl
    rw [hspan, h.textIn?, Token.text_of_not_string hne]

end Stands

/-! ## The run -/

namespace Reading

variable {source : String} {before rest : List Char} {ts : List Token}

theorem le_start (h : Reading before rest ts) : ∀ t ∈ ts, byteLength before ≤ t.span.start := by
  induction h with
  | @done before gap hgap =>
    intro t ht
    obtain rfl := List.mem_singleton.mp ht
    simp [Token.eof]
  | @token before gap rest l ts hgap hfits h ih =>
    intro t ht
    rcases List.mem_cons.mp ht with rfl | ht
    · simp [tokenAt]
    · have := ih t ht
      simp only [byteLength_append] at this
      omega

theorem pairwise (h : Reading before rest ts) :
    ts.Pairwise fun t u => t.span.stop ≤ u.span.start := by
  induction h with
  | done hgap => exact List.pairwise_singleton _ _
  | token hgap hfits h ih =>
    refine List.Pairwise.cons (fun u hu => ?_) ih
    have := h.le_start u hu
    rwa [byteLength_append] at this

theorem gaps_blank (h : Reading before rest ts) (hsource : source.toList = before ++ rest) :
    ∀ s ∈ gaps (byteLength before) ts,
      ∃ gap, s.textIn? source = some gap ∧ Blank gap.toList := by
  induction h with
  | @done before gap hgap =>
    intro s hs
    obtain rfl : s = ⟨byteLength before, byteLength (before ++ gap)⟩ := by
      simpa [gaps, Token.eof] using hs
    refine ⟨String.ofList gap, ?_, by simpa using hgap⟩
    exact Span.textIn?_append before gap [] (by simpa using hsource)
  | @token before gap rest l ts hgap hfits h ih =>
    intro s hs
    rcases List.mem_cons.mp hs with rfl | hs
    · refine ⟨String.ofList gap, ?_, by simpa using hgap⟩
      exact Span.textIn?_append before gap (l.text ++ rest) (by simpa using hsource)
    · refine ih (by simpa using hsource) s ?_
      rwa [byteLength_append]

theorem pieces_join (h : Reading before rest ts) (hsource : source.toList = before ++ rest) :
    ∃ texts, (pieces (byteLength before) ts).mapM (·.textIn? source) = some texts ∧
      String.join texts = String.ofList rest := by
  induction h with
  | @done before gap hgap =>
    have hgaptext : Span.textIn? ⟨byteLength before, byteLength (before ++ gap)⟩ source =
        some (String.ofList gap) :=
      Span.textIn?_append before gap [] (by simpa using hsource)
    have hend : Span.textIn? ⟨byteLength (before ++ gap), byteLength (before ++ gap)⟩ source =
        some "" := by
      have := Span.textIn?_append (before ++ gap) [] [] (by simpa using hsource)
      rwa [List.append_nil] at this
    refine ⟨[String.ofList gap, ""], ?_, by simp⟩
    simp only [pieces, Token.eof, List.mapM_cons, List.mapM_nil, hgaptext, hend,
      Option.pure_def, Option.bind_eq_bind, Option.bind_some]
  | @token before gap rest l ts hgap hfits h ih =>
    have hgaptext : Span.textIn? ⟨byteLength before, byteLength (before ++ gap)⟩ source =
        some (String.ofList gap) :=
      Span.textIn?_append before gap (l.text ++ rest) (by simpa using hsource)
    have htext := Span.textIn?_append (before ++ gap) l.text rest (by simpa using hsource)
    obtain ⟨texts, htexts, hjoin⟩ := ih (by simpa using hsource)
    rw [byteLength_append _ l.text] at htexts htext
    refine ⟨String.ofList gap :: String.ofList l.text :: texts, ?_, ?_⟩
    · simp only [pieces, tokenAt, List.mapM_cons, hgaptext, htext, htexts,
        Option.pure_def, Option.bind_eq_bind, Option.bind_some]
    · simp [hjoin, ← String.ofList_append]

end Reading

theorem tiling_tokenize (source : String) : Tiling source (tokenize source) := by
  have h := reading_tokenize source
  have hcases := fun t (ht : t ∈ tokenize source) => mem_tokenize_cases ht
  obtain ⟨body, hts, hbody⟩ := h.exists_body
  have hend := isValid_byteLength (List.append_nil source.toList).symm
  have hempty : Span.textIn? ⟨source.utf8ByteSize, source.utf8ByteSize⟩ source = some "" := by
    have : Span.textIn? ⟨byteLength source.toList, _⟩ source = some _ :=
      Span.textIn?_append source.toList [] [] (by simp)
    rwa [List.append_nil, byteLength_toList] at this
  exact {
    ends := ⟨body, by rw [hts, List.nil_append, byteLength_toList]; rfl, hbody⟩
    nonempty := fun t ht heof => by
      rcases hcases t ht with rfl | ⟨-, before, l, after, hstands⟩
      · cases heof
      · exact hstands.start_lt_stop
    inside := fun t ht => by
      rcases hcases t ht with rfl | ⟨-, before, l, after, hstands⟩
      · exact Nat.le_refl _
      · exact hstands.stop_le
    boundaries := fun t ht => by
      rcases hcases t ht with rfl | ⟨-, before, l, after, hstands⟩
      · rw [byteLength_toList] at hend
        exact ⟨hend, hend⟩
      · rw [hstands.span_eq]
        have hsource := hstands.source_eq
        exact ⟨isValid_byteLength (by rw [hsource, List.append_assoc]), isValid_byteLength hsource⟩
    ordered := h.pairwise
    gaps_blank := h.gaps_blank rfl
    pieces_join := by
      obtain ⟨texts, htexts, hjoin⟩ := h.pieces_join rfl
      exact ⟨texts, htexts, by rw [hjoin, String.ofList_toList]⟩
    literal := fun t ht hkind => by
      rcases hcases t ht with rfl | ⟨-, before, l, after, hstands⟩
      · exact hempty
      · rw [hstands.textIn?, Token.text_of_not_string hkind]
    quoted := fun t ht terminated hkind => by
      rcases hcases t ht with rfl | ⟨-, before, l, after, hstands⟩
      · cases hkind
      · rw [hstands.textIn?, Token.text_of_string hkind]
    slices := fun t ht => by
      rcases hcases t ht with rfl | ⟨-, before, l, after, hstands⟩
      · exact hempty
      · exact hstands.literalSpan_textIn? }

end ScriptFrontend
