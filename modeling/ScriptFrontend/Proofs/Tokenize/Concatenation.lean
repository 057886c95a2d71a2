import ScriptFrontend.Proofs.Tokenize.MaximalMunch

/-!
# Tokens of a concatenation

A lexeme sees no more of the text after it than its first character. So two texts in a row have
the tokens of the one and then the tokens of the other, unless the last token of the first text
takes in the first character of the second (`tokenize_append_iff`).
-/

namespace ScriptFrontend

open Text Cursor

def Span.shift (n : Nat) (s : Span) : Span := ⟨n + s.start, n + s.stop⟩

/-- The token with `n` more bytes before it. -/
def Token.shift (n : Nat) (t : Token) : Token := ⟨t.kind, t.literal, t.span.shift n⟩

/-- A token of the kind that ends before the character `next` takes that character in. -/
def TokenKind.GoesOn (next : Option Char) : TokenKind → Prop
  | string false => next ≠ none
  | keyword _ | ident => ∃ c ∈ next, isWordChar c = true
  | int | float => ∃ c ∈ next, isNumberChar c = true
  | operator o => (o = .assign ∨ o = .bang) ∧ next = some '='
  | _ => False

/-- The last token of `a` goes on in `b`. It must end where `a` does; an open string always does. -/
def Merges (a b : String) : Prop :=
  ∃ t ∈ (tokenize a).dropLast.getLast?,
    (t.kind = .string false ∨ t.span.stop = a.utf8ByteSize) ∧ t.kind.GoesOn b.toList.head?

/-! ## One lexeme before more text -/

theorem MaximalRun.iff_of_none {p : Char → Bool} {text : List Char} {next : Option Char}
    (h : MaximalRun p text none) : MaximalRun p text next ↔ ¬ ∃ c ∈ next, p c = true := by
  constructor
  · rintro hrun ⟨c, hc, hp⟩
    rw [hrun.stops c hc] at hp
    cases hp
  · intro hno
    exact ⟨h.ne_nil, h.inside, fun c hc => Bool.eq_false_iff.mpr fun hp => hno ⟨c, hc, hp⟩⟩

namespace TokenKind

theorem admits_iff_not_goesOn {kind : TokenKind} {text : List Char} {next : Option Char}
    (h : kind.Admits text none) : kind.Admits text next ↔ ¬ kind.GoesOn next := by
  cases kind with
  | keyword k => exact (and_iff_left h.2).trans h.1.iff_of_none
  | ident => exact (and_iff_left h.2).trans h.1.iff_of_none
  | int => exact (and_iff_left h.2).trans h.1.iff_of_none
  | float => exact (and_iff_left h.2).trans h.1.iff_of_none
  | operator o => exact (and_iff_right h.1).trans not_and.symm
  | string terminated =>
    cases terminated with
    | true => exact iff_of_true h id
    | false =>
      obtain ⟨body, hbody, htext, -⟩ := h
      constructor
      · rintro ⟨_, -, -, hnext⟩
        exact not_not_intro hnext
      · intro hnext
        exact ⟨body, hbody, htext, not_not.mp hnext⟩
  | punctuation p => exact iff_of_true h id
  | illegal => exact iff_of_true h id
  | eof => exact h.elim

end TokenKind

/-- A lexeme before some text does not notice what comes after that text. -/
theorem Lexeme.Fits.append {l : Lexeme} {rest : List Char} (h : l.Fits rest) (hrest : rest ≠ [])
    (bs : List Char) : l.Fits (rest ++ bs) := by
  cases rest with
  | nil => exact absurd rfl hrest
  | cons c rest => exact h

/-! ## Moving a reading -/

theorem Token.shift_tokenAt (n offset : Nat) (l : Lexeme) :
    (tokenAt offset l).shift n = tokenAt (n + offset) l := by
  simp only [shift, tokenAt, Span.shift, Nat.add_assoc]

theorem Token.shift_eof (n offset : Nat) : (eof offset).shift n = eof (n + offset) := rfl

theorem Blank.append {gap gap' : List Char} (h : Blank gap) (h' : Blank gap') :
    Blank (gap ++ gap') :=
  fun c hc => (List.mem_append.mp hc).elim (h c) (h' c)

namespace Reading

variable {before rest : List Char} {ts : List Token}

theorem shift (pre : List Char) (h : Reading before rest ts) :
    Reading (pre ++ before) rest (ts.map (Token.shift (byteLength pre))) := by
  induction h with
  | done hgap =>
    rw [List.map_singleton, Token.shift_eof, ← byteLength_append, ← List.append_assoc]
    exact .done hgap
  | token hgap hfits h ih =>
    rw [List.map_cons, Token.shift_tokenAt, ← byteLength_append, ← List.append_assoc]
    refine .token hgap hfits ?_
    rwa [List.append_assoc pre, List.append_assoc pre]

theorem blanks {gap : List Char} (hgap : Blank gap) (h : Reading (before ++ gap) rest ts) :
    Reading before (gap ++ rest) ts := by
  cases h with
  | done hgap' =>
    rw [List.append_assoc]
    exact .done (hgap.append hgap')
  | token hgap' hfits h =>
    rw [← List.append_assoc, ← List.append_assoc, List.append_assoc before]
    refine .token (hgap.append hgap') hfits ?_
    rwa [← List.append_assoc before]

/-- Readings follow each other if each lexeme of the first fits before all that comes then. -/
theorem append {source bs : List Char} {us : List Token} (h : Reading before rest ts)
    (hr : Reaches source before rest)
    (hfits : ∀ t pre l post, Stands source t pre l post → l.Fits (post ++ bs))
    (hb : Reading (before ++ rest) bs us) : Reading before (rest ++ bs) (ts.dropLast ++ us) := by
  induction h with
  | done hgap => exact hb.blanks hgap
  | @token before gap rest l ts hgap hl h ih =>
    rw [List.append_assoc] at hr
    have hplace := hr.blanks hgap
    have hne : ts ≠ [] := by
      obtain ⟨body, rfl, -⟩ := h.exists_body
      simp
    rw [List.dropLast_cons_of_ne_nil hne, List.cons_append, List.append_assoc _ rest]
    refine .token hgap (hfits _ _ l rest ⟨hplace, hl, rfl⟩) (ih (hplace.lexeme hl) ?_)
    simpa only [List.append_assoc] using hb

end Reading

theorem tokens_shift (n : Nat) (cs : List Char) :
    tokens ⟨n, cs⟩ = (tokens ⟨0, cs⟩).map (Token.shift n) := by
  obtain ⟨before, rfl⟩ := exists_byteLength n
  have hread := (reading_tokens [] cs).shift before
  rw [List.append_nil] at hread
  exact hread.tokens_eq

/-! ## The last token -/

theorem tokens_of_lexeme (before : List Char) {l : Lexeme} {rest : List Char} (h : l.Fits rest) :
    tokens ⟨byteLength before, l.text ++ rest⟩ =
      tokenAt (byteLength before) l :: tokens ⟨byteLength (before ++ l.text), rest⟩ := by
  have hread : Reading before ([] ++ l.text ++ rest) _ :=
    .token (fun _ hc => nomatch hc) h (reading_tokens _ rest)
  simpa only [List.nil_append, List.append_nil] using hread.tokens_eq

/-- What is read before a place does not depend on the text that is put at the end. -/
theorem Reaches.exists_tokens_append {source before rest : List Char}
    (h : Reaches source before rest) (hrest : rest ≠ []) :
    ∃ ts, ∀ bs, tokens ⟨0, source ++ bs⟩ = ts ++ tokens ⟨byteLength before, rest ++ bs⟩ := by
  induction h with
  | start => exact ⟨[], fun _ => rfl⟩
  | @blanks before gap rest h hgap ih =>
    obtain ⟨ts, hts⟩ := ih (List.append_ne_nil_of_right_ne_nil gap hrest)
    refine ⟨ts, fun bs => ?_⟩
    rw [hts, List.append_assoc,
      ((reading_tokens (before ++ gap) (rest ++ bs)).blanks hgap).tokens_eq]
  | @lexeme before rest l h hfits ih =>
    obtain ⟨ts, hts⟩ := ih (List.append_ne_nil_of_right_ne_nil l.text hrest)
    refine ⟨ts ++ [tokenAt (byteLength before) l], fun bs => ?_⟩
    rw [hts, List.append_assoc l.text, tokens_of_lexeme before (hfits.append hrest bs),
      List.append_assoc, List.singleton_append]

/-- What is read from a place on ends what is read from the start. -/
theorem Reaches.exists_tokens {source before rest : List Char} (h : Reaches source before rest) :
    ∃ ts, tokens ⟨0, source⟩ = ts ++ tokens ⟨byteLength before, rest⟩ := by
  by_cases hrest : rest = []
  · subst hrest
    obtain ⟨body, hts, -⟩ := (reading_tokens [] source).exists_body
    have hbefore := h.append_eq
    rw [List.append_nil] at hbefore
    exact ⟨body, by rw [tokens_nil, hbefore]; exact hts⟩
  · obtain ⟨ts, hts⟩ := h.exists_tokens_append hrest
    have hnil := hts []
    rw [List.append_nil, List.append_nil] at hnil
    exact ⟨ts, hnil⟩

theorem mem_dropLast_tokenize_iff {source : String} {t : Token} :
    t ∈ (tokenize source).dropLast ↔ t ∈ tokenize source ∧ t.isEof = false := by
  obtain ⟨body, hts, hbody⟩ := (reading_tokenize source).exists_body
  rw [hts, List.dropLast_concat, List.mem_append, List.mem_singleton]
  constructor
  · intro ht
    exact ⟨.inl ht, hbody t ht⟩
  · rintro ⟨ht | rfl, heof⟩
    · exact ht
    · cases heof

theorem exists_stands_of_mem_dropLast {source : String} {t : Token}
    (ht : t ∈ (tokenize source).dropLast) :
    ∃ before l after, Stands source.toList t before l after := by
  obtain ⟨hmem, heof⟩ := mem_dropLast_tokenize_iff.mp ht
  exact (reading_tokenize source).exists_stands .start hmem heof

namespace Stands

variable {source : String} {t : Token} {before after : List Char} {l : Lexeme}

theorem exists_tokenize (h : Stands source.toList t before l after) :
    ∃ ts, tokenize source = ts ++ t :: tokens ⟨byteLength (before ++ l.text), after⟩ := by
  obtain ⟨ts, hts⟩ := h.reaches.exists_tokens
  rw [tokens_of_lexeme before h.fits, ← h.token_eq] at hts
  exact ⟨ts, hts⟩

theorem mem_dropLast (h : Stands source.toList t before l after) :
    t ∈ (tokenize source).dropLast := by
  obtain ⟨ts, hts⟩ := h.exists_tokenize
  refine mem_dropLast_tokenize_iff.mpr ⟨by simp [hts], ?_⟩
  rw [h.token_eq]
  exact isEof_tokenAt h.fits.kind_ne_eof

theorem getLast?_dropLast (h : Stands source.toList t before l []) :
    (tokenize source).dropLast.getLast? = some t := by
  obtain ⟨ts, hts⟩ := h.exists_tokenize
  rw [hts, tokens_nil, List.append_cons, List.dropLast_concat, List.getLast?_concat]

/-- A token ends where the source ends if nothing comes after it. -/
theorem stop_eq_iff (h : Stands source.toList t before l after) :
    t.span.stop = source.utf8ByteSize ↔ after = [] := by
  rw [← h.charAt?_stop_eq_none_iff, h.charAt?_stop, List.head?_eq_none_iff]

end Stands

/-! ## Two texts in a row -/

/-- The lexemes of `a` stay in place exactly if the tokens of `a` and `b` follow each other. -/
theorem tokenize_append_iff_fits (a b : String) :
    tokenize (a ++ b) =
        (tokenize a).dropLast ++ (tokenize b).map (Token.shift a.utf8ByteSize) ↔
      ∀ t pre l post, Stands a.toList t pre l post → l.Fits (post ++ b.toList) := by
  constructor
  · intro heq t pre l post h
    have hmem : t ∈ tokenize (a ++ b) := by
      rw [heq]
      exact List.mem_append_left _ h.mem_dropLast
    have heof := (mem_dropLast_tokenize_iff.mp h.mem_dropLast).2
    obtain ⟨pre', l', post', h'⟩ := (reading_tokenize (a ++ b)).exists_stands .start hmem heof
    -- the same token has the same place and text in both sources
    have hsource := h'.source_eq
    rw [String.toList_append, h.source_eq, List.append_assoc, List.append_assoc,
      List.append_assoc] at hsource
    have hstart : byteLength pre = byteLength pre' := by
      have hspan := h.span_eq.symm.trans h'.span_eq
      exact (Span.mk.inj hspan).1
    have htext : l.text = l'.text := by
      have := h.text_eq.symm.trans h'.text_eq
      exact String.ofList_injective this
    obtain ⟨-, hrest⟩ := append_inj_of_byteLength hsource hstart
    rw [htext] at hrest
    have hkind : l.kind = l'.kind := h.kind_eq.symm.trans h'.kind_eq
    have hfits := h'.fits
    rw [Lexeme.Fits, ← hkind, ← htext, ← List.append_cancel_left hrest] at hfits
    exact hfits
  · intro hfits
    have hb := (reading_tokenize b).shift a.toList
    rw [byteLength_toList, List.append_nil] at hb
    have hread := (reading_tokenize a).append .start hfits hb
    have heq := hread.tokens_eq
    rwa [← String.toList_append] at heq

theorem tokenize_append_iff (a b : String) :
    tokenize (a ++ b) =
        (tokenize a).dropLast ++ (tokenize b).map (Token.shift a.utf8ByteSize) ↔
      ¬ Merges a b := by
  rw [tokenize_append_iff_fits]
  constructor
  · rintro hfits ⟨t, hlast, hend, hgoes⟩
    obtain ⟨pre, l, post, h⟩ := exists_stands_of_mem_dropLast (List.mem_of_getLast? hlast)
    have hkept := hfits t pre l post h
    have hadmits := h.fits
    rw [Lexeme.Fits, ← h.kind_eq] at hadmits hkept
    obtain rfl : post = [] := by
      rcases hend with hopen | hstop
      · rw [hopen] at hadmits
        obtain ⟨_, -, -, hnone⟩ := hadmits
        exact List.head?_eq_none_iff.mp hnone
      · exact h.stop_eq_iff.mp hstop
    exact (TokenKind.admits_iff_not_goesOn hadmits).mp hkept hgoes
  · intro hmerges t pre l post h
    by_cases hpost : post = []
    · subst hpost
      refine (TokenKind.admits_iff_not_goesOn h.fits).mpr fun hgoes => hmerges ?_
      rw [← h.kind_eq] at hgoes
      exact ⟨t, h.getLast?_dropLast, .inr (h.stop_eq_iff.mpr rfl), hgoes⟩
    · exact h.fits.append hpost _

end ScriptFrontend
