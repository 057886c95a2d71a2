import ScriptFrontend.Proofs.Tokenize.Tiling

/-!
# The tokens of a source are those of the grammar

Each token of a source has the kind that the grammar gives its text before the next character, and
no other kind. The grammar also determines the tokens: of all lists that tile the source, only
one is made of tokens that it admits.
-/

namespace ScriptFrontend

open Text Cursor

/-- The grammar admits the token at its place in the source. -/
def Admitted (source : String) (t : Token) : Prop :=
  ∃ text, t.span.textIn? source = some text ∧
    t.kind.Admits text.toList (charAt? source t.span.stop)

namespace TokenKind

variable {text : List Char} {next : Option Char}

theorem admits_word_iff : (∃ k, Admits text next (.keyword k)) ∨ Admits text next .ident ↔
    MaximalRun isWordChar text next := by
  constructor
  · rintro (⟨k, hrun, -⟩ | ⟨hrun, -⟩) <;> exact hrun
  · intro hrun
    by_cases hk : ∃ k : Keyword, k.Spells text
    · obtain ⟨k, hk⟩ := hk
      exact .inl ⟨k, hrun, hk⟩
    · exact .inr ⟨hrun, fun k hspell => hk ⟨k, hspell⟩⟩

theorem admits_number_iff : Admits text next .int ∨ Admits text next .float ↔
    MaximalRun isNumberChar text next := by
  constructor
  · rintro (⟨hrun, -⟩ | ⟨hrun, -⟩) <;> exact hrun
  · intro hrun
    by_cases hdot : '.' ∈ text
    · exact .inr ⟨hrun, hdot⟩
    · exact .inl ⟨hrun, hdot⟩

end TokenKind

namespace Stands

variable {source : String} {t : Token} {before after : List Char} {l : Lexeme}

theorem charAt?_stop (h : Stands source.toList t before l after) :
    charAt? source t.span.stop = after.head? := by
  rw [h.span_eq]
  exact charAt?_append h.source_eq

theorem kind_eq {source : List Char} (h : Stands source t before l after) : t.kind = l.kind := by
  rw [h.token_eq]
  rfl

theorem kind_eq_iff (h : Stands source.toList t before l after) {kind : TokenKind} :
    t.kind = kind ↔ kind.Admits t.text.toList (charAt? source t.span.stop) := by
  have hfits : t.kind.Admits t.text.toList (charAt? source t.span.stop) := by
    rw [h.charAt?_stop, h.text_eq, h.kind_eq, String.toList_ofList]
    exact h.fits
  constructor
  · rintro rfl
    exact hfits
  · exact TokenKind.admits_unique hfits

theorem charAt?_stop_eq_none_iff (h : Stands source.toList t before l after) :
    charAt? source t.span.stop = none ↔ t.span.stop = source.utf8ByteSize := by
  rw [h.charAt?_stop, h.span_eq, ← byteLength_toList, h.source_eq, byteLength_append _ after,
    List.head?_eq_none_iff, ← byteLength_eq_zero_iff]
  exact ⟨fun h0 => by rw [h0, Nat.add_zero], fun heq => by dsimp only at heq; omega⟩

end Stands

/-- Admitted tokens with their texts and blank gaps derive a reading. -/
theorem reading_of_admitted {source : String} {before rest : List Char} {body : List Token}
    (hsource : source.toList = before ++ rest)
    (hbody : ∀ t ∈ body, t.span.textIn? source = some t.text ∧ Admitted source t)
    (hgaps : ∀ s ∈ gaps (byteLength before) (body ++ [.eof source.utf8ByteSize]),
      ∃ gap, s.textIn? source = some gap ∧ Blank gap.toList) :
    Reading before rest (body ++ [.eof source.utf8ByteSize]) := by
  induction body generalizing before rest with
  | nil =>
    obtain ⟨gap, hgap, hblank⟩ := hgaps ⟨byteLength before, source.utf8ByteSize⟩ (by
      simp [gaps, Token.eof])
    obtain ⟨hstop, after, rfl⟩ := Span.textIn?_eq_some hgap hsource rfl
    replace hstop : source.utf8ByteSize = byteLength (before ++ gap.toList) := hstop
    obtain rfl : after = [] := by
      have hsize := hstop
      rw [← byteLength_toList, hsource, ← List.append_assoc, byteLength_append _ after] at hsize
      exact byteLength_eq_zero_iff.mp (by omega)
    rw [List.nil_append, List.append_nil, hstop]
    exact .done hblank
  | cons t body ih =>
    obtain ⟨gap, hgap, hblank⟩ := hgaps ⟨byteLength before, t.span.start⟩ (by simp [gaps])
    obtain ⟨hstart, after, rfl⟩ := Span.textIn?_eq_some hgap hsource rfl
    rw [← List.append_assoc] at hsource
    obtain ⟨htext, text, htext', hadmits⟩ := hbody t List.mem_cons_self
    obtain rfl : t.text = text := Option.some.inj (htext.symm.trans htext')
    obtain ⟨hstop, after, rfl⟩ := Span.textIn?_eq_some htext hsource hstart
    rw [← List.append_assoc] at hsource
    let l : Lexeme := ⟨t.kind, t.literal.toList⟩
    have hl : l.text = t.text.toList := by rw [Token.text, String.toList_ofList]; rfl
    have ht : t = tokenAt (byteLength (before ++ gap.toList)) l := by
      have hspan : t.span = ⟨byteLength (before ++ gap.toList),
          byteLength (before ++ gap.toList) + byteLength l.text⟩ := by
        rw [hl, ← byteLength_append, ← hstart, ← hstop]
      obtain ⟨kind, literal, span⟩ := t
      simp only [tokenAt, l, Token.mk.injEq, String.ofList_toList, true_and]
      exact hspan
    rw [hstop, charAt?_append hsource, ← hl] at hadmits
    have hlater := ih hsource (fun u hu => hbody u (List.mem_cons_of_mem _ hu)) fun s hs =>
      hgaps s (List.mem_cons_of_mem _ (by rwa [hstop]))
    rw [← hl] at hlater ⊢
    rw [List.cons_append, ht, ← List.append_assoc]
    exact .token hblank hadmits hlater

namespace Tiling

variable {source : String} {ts : List Token}

theorem textIn?_text (h : Tiling source ts) {t : Token} (ht : t ∈ ts) :
    t.span.textIn? source = some t.text := by
  by_cases hkind : ∃ b, t.kind = .string b
  · obtain ⟨b, hkind⟩ := hkind
    rw [h.quoted t ht b hkind, Token.text_of_string hkind]
  · have hne : ∀ b, t.kind ≠ .string b := fun b hb => hkind ⟨b, hb⟩
    rw [h.literal t ht hne, Token.text_of_not_string hne]

/-- The grammar leaves no choice of tokens. -/
theorem eq_tokenize (h : Tiling source ts)
    (hadmitted : ∀ t ∈ ts, t.isEof = false → Admitted source t) : ts = tokenize source := by
  obtain ⟨body, rfl, hbody⟩ := h.ends
  have hread : Reading [] source.toList (body ++ [.eof source.utf8ByteSize]) := by
    refine reading_of_admitted (List.nil_append _).symm (fun t ht => ?_) h.gaps_blank
    have hmem := List.mem_append_left [Token.eof source.utf8ByteSize] ht
    exact ⟨h.textIn?_text hmem, hadmitted t hmem (hbody t ht)⟩
  exact hread.tokens_eq.symm

end Tiling

theorem tokenize_maximal_munch (source : String) :
    (∀ t ∈ tokenize source, t.isEof = false →
      ∃ text, t.span.textIn? source = some text ∧
        (((∃ k, t.kind = .keyword k) ∨ t.kind = .ident) ↔
          MaximalRun isWordChar text.toList (charAt? source t.span.stop)) ∧
        ((t.kind = .int ∨ t.kind = .float) ↔
          MaximalRun isNumberChar text.toList (charAt? source t.span.stop)) ∧
        (∀ kind, t.kind = kind ↔ kind.Admits text.toList (charAt? source t.span.stop)) ∧
        (charAt? source t.span.stop = none ↔ t.span.stop = source.utf8ByteSize)) ∧
    ∀ ts, Tiling source ts → (∀ t ∈ ts, t.isEof = false → Admitted source t) →
      ts = tokenize source := by
  constructor
  · intro t ht heof
    rcases mem_tokenize_cases ht with rfl | ⟨-, before, l, after, hstands⟩
    · cases heof
    refine ⟨t.text, hstands.textIn?, ?_, ?_, fun kind => hstands.kind_eq_iff,
      hstands.charAt?_stop_eq_none_iff⟩
    · simp only [hstands.kind_eq_iff]
      exact TokenKind.admits_word_iff
    · simp only [hstands.kind_eq_iff]
      exact TokenKind.admits_number_iff
  · intro ts htiling hadmitted
    exact htiling.eq_tokenize hadmitted

/-- Three equals signs are `==` and `=`, and nothing else. -/
theorem tokenize_three_equals :
    [⟨.operator .equal, "==", ⟨0, 2⟩⟩, ⟨.operator .assign, "=", ⟨2, 3⟩⟩, .eof 3] =
        tokenize "===" ∧
      ∃ text, Span.textIn? ⟨0, 2⟩ "===" = some text ∧
        (TokenKind.operator .equal).Admits text.toList (charAt? "===" 2) := by
  obtain ⟨hsound, hunique⟩ := tokenize_maximal_munch "==="
  have htokens : [⟨.operator .equal, "==", ⟨0, 2⟩⟩, ⟨.operator .assign, "=", ⟨2, 3⟩⟩, .eof 3] =
      tokenize "===" := by
    refine hunique _ ?_ ?_
    · exact {
        ends := ⟨[_, _], rfl, by decide⟩
        nonempty := by decide
        inside := by decide
        boundaries := by decide
        ordered := by decide
        gaps_blank := fun s hs => by
          refine ⟨"", ?_, by simp [Blank]⟩
          revert s hs
          decide
        pieces_join := ⟨["", "==", "", "=", "", ""], by decide, by decide⟩
        literal := fun t ht _ => by
          revert t ht
          decide
        quoted := by simp [Token.eof]
        slices := by decide }
    · intro t ht heof
      simp only [List.mem_cons, List.not_mem_nil, or_false] at ht
      rcases ht with rfl | rfl | rfl
      · exact ⟨"==", by decide, by decide, by decide⟩
      · exact ⟨"=", by decide, by decide, by decide⟩
      · cases heof
  have hmem : ⟨.operator .equal, "==", ⟨0, 2⟩⟩ ∈ tokenize "===" := by
    rw [← htokens]
    exact List.mem_cons_self
  obtain ⟨text, htext, -, -, hkind, -⟩ := hsound _ hmem rfl
  exact ⟨htokens, text, htext, (hkind _).mp rfl⟩

end ScriptFrontend
