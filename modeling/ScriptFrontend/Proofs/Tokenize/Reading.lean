import ScriptFrontend.Proofs.Lexeme.Scan
import ScriptFrontend.Proofs.Text.Slice
import ScriptFrontend.Token.Cursor

/-!
# Readings

`Reading before rest ts` derives the tokens `ts` of `rest`, which stands after `before`, from the
grammar alone: blanks, a lexeme that fits, and so on, and the end token. `tokens_eq_iff` says that
a cursor yields the tokens that can be derived, and no others.

`Reaches source before rest` says that reading gets to the place between `before` and `rest`. What
holds at the start and is kept by blanks and by lexemes holds at every such place, and each token
stands at one (`Reading.exists_stands`).
-/

namespace ScriptFrontend

open Text Cursor

/-- Nothing but blanks. -/
def Blank (gap : List Char) : Prop := ∀ c ∈ gap, isBlank c = true

inductive Reading : List Char → List Char → List Token → Prop where
  | done {before gap : List Char} (hgap : Blank gap) :
      Reading before gap [.eof (byteLength (before ++ gap))]
  | token {before gap rest : List Char} {l : Lexeme} {ts : List Token} (hgap : Blank gap)
      (hfits : l.Fits rest) (h : Reading (before ++ gap ++ l.text) rest ts) :
      Reading before (gap ++ l.text ++ rest) (tokenAt (byteLength (before ++ gap)) l :: ts)

/-! ## One step -/

theorem Lexeme.Fits.text_ne_nil {l : Lexeme} {rest : List Char} (h : l.Fits rest) :
    l.text ≠ [] := by
  obtain ⟨c, cs, htext, -, hscan⟩ := Lexeme.scanned_of_fits h
  have := Lexeme.text_scan_ne_nil c cs
  rwa [hscan] at this

theorem Lexeme.Fits.kind_ne_eof {l : Lexeme} {rest : List Char} (h : l.Fits rest) :
    l.kind ≠ .eof := by
  intro hkind
  rw [Lexeme.Fits, hkind] at h
  exact h

theorem isEof_tokenAt {offset : Nat} {l : Lexeme} (h : l.kind ≠ .eof) :
    (tokenAt offset l).isEof = false := by
  obtain ⟨kind, literal⟩ := l
  cases kind <;> first | rfl | exact absurd rfl h

theorem next_of_blank {offset : Nat} {gap : List Char} (hgap : Blank gap) :
    next ⟨offset, gap⟩ = (.eof (offset + byteLength gap), ⟨offset + byteLength gap, []⟩) := by
  have htake : gap.takeWhile isBlank = gap := List.takeWhile_eq_self_iff.mpr hgap
  have hdrop : gap.dropWhile isBlank = [] := List.dropWhile_eq_nil_iff.mpr hgap
  simp [next, skipBlanks, takeToken, htake, hdrop]

theorem next_of_fits {offset : Nat} {gap rest : List Char} {l : Lexeme} (hgap : Blank gap)
    (hfits : l.Fits rest) :
    next ⟨offset, gap ++ l.text ++ rest⟩ = (tokenAt (offset + byteLength gap) l,
      ⟨offset + byteLength gap + byteLength l.text, rest⟩) := by
  obtain ⟨c, cs, htext, hc, hscan⟩ := Lexeme.scanned_of_fits hfits
  have hstop : ∀ d ∈ (c :: cs).head?, isBlank d = false := by simp [hc]
  have htake := takeWhile_append_of_stops hgap hstop
  have hdrop := dropWhile_append_of_stops hgap hstop
  rw [List.append_assoc, htext]
  simp [next, skipBlanks, takeToken, htake, hdrop, hscan, tokenAt]

/-- A text is blank, or a lexeme fits after its blanks. -/
theorem blank_or_exists_fits (cs : List Char) :
    Blank cs ∨ ∃ gap l rest, Blank gap ∧ Lexeme.Fits l rest ∧ cs = gap ++ l.text ++ rest := by
  have hgap : Blank (cs.takeWhile isBlank) := fun c hc =>
    List.all_eq_true.mp List.all_takeWhile c hc
  have hwhole := List.takeWhile_append_dropWhile (p := isBlank) (l := cs)
  cases hdrop : cs.dropWhile isBlank with
  | nil =>
    rw [hdrop, List.append_nil] at hwhole
    exact .inl (hwhole ▸ hgap)
  | cons c rest =>
    have hc : isBlank c = false := stops_dropWhile isBlank cs c (by rw [hdrop]; rfl)
    refine .inr ⟨_, _, _, hgap, Lexeme.fits_scan rest hc, ?_⟩
    rw [List.append_assoc, Lexeme.text_scan, ← hdrop, hwhole]

/-! ## The run -/

theorem tokens_of_blank {offset : Nat} {gap : List Char} (hgap : Blank gap) :
    tokens ⟨offset, gap⟩ = [.eof (offset + byteLength gap)] := by
  rw [tokens]
  split
  next t q h =>
    rw [next_of_blank hgap] at h
    obtain ⟨rfl, rfl⟩ := Prod.mk.inj h
    simp [Token.eof, Token.isEof, TokenKind.isEof]

theorem tokens_nil (offset : Nat) : tokens ⟨offset, []⟩ = [.eof offset] :=
  tokens_of_blank fun _ hc => nomatch hc

theorem tokens_of_fits {offset : Nat} {gap rest : List Char} {l : Lexeme} (hgap : Blank gap)
    (hfits : l.Fits rest) :
    tokens ⟨offset, gap ++ l.text ++ rest⟩ = tokenAt (offset + byteLength gap) l ::
      tokens ⟨offset + byteLength gap + byteLength l.text, rest⟩ := by
  rw [tokens]
  split
  next t q h =>
    rw [next_of_fits hgap hfits] at h
    obtain ⟨rfl, rfl⟩ := Prod.mk.inj h
    simp [isEof_tokenAt hfits.kind_ne_eof]

theorem reading_tokens (before rest : List Char) :
    Reading before rest (tokens ⟨byteLength before, rest⟩) := by
  induction hn : rest.length using Nat.strongRecOn generalizing before rest with
  | ind n ih =>
    rcases blank_or_exists_fits rest with hgap | ⟨gap, l, rest, hgap, hfits, rfl⟩
    · rw [tokens_of_blank hgap, ← byteLength_append]
      exact .done hgap
    · have hpos := List.length_pos_iff.mpr hfits.text_ne_nil
      simp only [List.length_append] at hn
      rw [tokens_of_fits hgap hfits, ← byteLength_append, ← byteLength_append]
      exact .token hgap hfits (ih rest.length (by omega) _ rest rfl)

theorem Reading.tokens_eq {before rest : List Char} {ts : List Token}
    (h : Reading before rest ts) : tokens ⟨byteLength before, rest⟩ = ts := by
  induction h with
  | done hgap => rw [tokens_of_blank hgap, byteLength_append]
  | token hgap hfits _ ih =>
    rw [tokens_of_fits hgap hfits, ← byteLength_append, ← byteLength_append, ih]

/-- A cursor yields the tokens that the grammar derives for its text. -/
theorem tokens_eq_iff {before rest : List Char} {ts : List Token} :
    tokens ⟨byteLength before, rest⟩ = ts ↔ Reading before rest ts :=
  ⟨fun h => h ▸ reading_tokens before rest, Reading.tokens_eq⟩

theorem reading_tokenize (source : String) : Reading [] source.toList (tokenize source) :=
  reading_tokens [] source.toList

theorem Reading.exists_body {before rest : List Char} {ts : List Token}
    (h : Reading before rest ts) :
    ∃ body, ts = body ++ [.eof (byteLength (before ++ rest))] ∧ ∀ t ∈ body, t.isEof = false := by
  induction h with
  | done hgap => exact ⟨[], rfl, by simp⟩
  | @token before gap rest l ts hgap hfits h ih =>
    obtain ⟨body, rfl, hbody⟩ := ih
    refine ⟨tokenAt (byteLength (before ++ gap)) l :: body, ?_, ?_⟩
    · simp only [List.cons_append, List.append_assoc]
    · intro t ht
      rcases List.mem_cons.mp ht with rfl | ht
      · exact isEof_tokenAt hfits.kind_ne_eof
      · exact hbody t ht

/-! ## Places -/

/-- Reading the source gets to the place between `before` and `rest`. -/
inductive Reaches (source : List Char) : List Char → List Char → Prop where
  | start : Reaches source [] source
  | blanks {before gap rest : List Char} (h : Reaches source before (gap ++ rest))
      (hgap : Blank gap) : Reaches source (before ++ gap) rest
  | lexeme {before rest : List Char} {l : Lexeme} (h : Reaches source before (l.text ++ rest))
      (hfits : l.Fits rest) : Reaches source (before ++ l.text) rest

theorem Reaches.append_eq {source before rest : List Char} (h : Reaches source before rest) :
    before ++ rest = source := by
  induction h with
  | start => rfl
  | blanks _ _ ih => rw [List.append_assoc, ih]
  | lexeme _ _ ih => rw [List.append_assoc, ih]

/-- The token is made of the lexeme between `before` and `after`. -/
structure Stands (source : List Char) (t : Token) (before : List Char) (l : Lexeme)
    (after : List Char) : Prop where
  reaches : Reaches source before (l.text ++ after)
  fits : l.Fits after
  token_eq : t = tokenAt (byteLength before) l

theorem Stands.source_eq {source before after : List Char} {t : Token} {l : Lexeme}
    (h : Stands source t before l after) : source = before ++ l.text ++ after := by
  rw [List.append_assoc, h.reaches.append_eq]

namespace Reading

variable {source before rest : List Char} {ts : List Token}

/-- A token stands where the reading goes on with the tokens after it. -/
theorem exists_stands_between {init more : List Token} {t : Token}
    (h : Reading before rest (init ++ t :: more)) (hr : Reaches source before rest)
    (heof : t.isEof = false) :
    ∃ pre l post, Stands source t pre l post ∧ Reading (pre ++ l.text) post more := by
  generalize hts : init ++ t :: more = ts at h
  induction h generalizing init with
  | done hgap =>
    have hmem : t ∈ init ++ t :: more := by simp
    rw [hts] at hmem
    obtain rfl := List.mem_singleton.mp hmem
    cases heof
  | @token before gap rest l ts hgap hfits h ih =>
    rw [List.append_assoc] at hr
    have hplace := hr.blanks hgap
    cases init with
    | nil =>
      obtain ⟨rfl, rfl⟩ := List.cons.inj hts
      exact ⟨before ++ gap, l, rest, ⟨hplace, hfits, rfl⟩, h⟩
    | cons u init => exact ih (hplace.lexeme hfits) (List.cons.inj hts).2

theorem exists_stands (h : Reading before rest ts) (hr : Reaches source before rest) {t : Token}
    (ht : t ∈ ts) (heof : t.isEof = false) : ∃ pre l post, Stands source t pre l post := by
  obtain ⟨init, more, rfl⟩ := List.append_of_mem ht
  obtain ⟨pre, l, post, hstands, -⟩ := h.exists_stands_between hr heof
  exact ⟨pre, l, post, hstands⟩

/-- Each character that is no blank stands in a token. -/
theorem exists_stands_at (h : Reading before rest ts) (hr : Reaches source before rest)
    {us vs : List Char} {c : Char} (hc : isBlank c = false) (hrest : rest = us ++ c :: vs) :
    ∃ t ∈ ts, ∃ pre l post as bs, Stands source t pre l post ∧ l.text = as ++ c :: bs ∧
      before ++ us = pre ++ as := by
  induction h generalizing us with
  | @done before gap hgap =>
    have := hgap c (by simp [hrest])
    rw [hc] at this
    cases this
  | @token before gap rest l ts hgap hfits h ih =>
    rw [List.append_assoc] at hr hrest
    rcases append_eq_append_cons hrest with ⟨ws, hws⟩ | ⟨vs', rfl, hrest'⟩
    · have := hgap c (by simp [hws])
      rw [hc] at this
      cases this
    rcases append_eq_append_cons hrest' with ⟨ws, htext⟩ | ⟨ws, rfl, hrest''⟩
    · refine ⟨_, List.mem_cons_self, before ++ gap, l, rest, vs', ws, ?_, htext, ?_⟩
      · exact ⟨hr.blanks hgap, hfits, rfl⟩
      · rw [List.append_assoc]
    · obtain ⟨t, ht, pre, l', post, as, bs, hstands, htext, heq⟩ :=
        ih ((hr.blanks hgap).lexeme hfits) hrest''
      refine ⟨t, List.mem_cons_of_mem _ ht, pre, l', post, as, bs, hstands, htext, ?_⟩
      rw [← heq]
      simp only [List.append_assoc]

end Reading

/-- A token of a source is the end token, or it stands somewhere. -/
theorem mem_tokenize_cases {source : String} {t : Token} (ht : t ∈ tokenize source) :
    t = .eof source.utf8ByteSize ∨
      t.isEof = false ∧ ∃ before l after, Stands source.toList t before l after := by
  have h := reading_tokenize source
  obtain ⟨body, hts, hbody⟩ := h.exists_body
  rw [List.nil_append, byteLength_toList] at hts
  have hmem := ht
  rw [hts, List.mem_append, List.mem_singleton] at hmem
  rcases hmem with hmem | rfl
  · exact .inr ⟨hbody t hmem, h.exists_stands .start ht (hbody t hmem)⟩
  · exact .inl rfl

end ScriptFrontend
