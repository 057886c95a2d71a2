import ScriptFrontend.Proofs.Stream.Resumption

/-!
# Progress

A pull either finds nothing but blanks and answers the end token, or it answers the token that
begins at the first other character and moves past it. `Progress` says so of one pull in terms of
the source, and `serveAll_progress` of every pull, wherever the requests before have led. Each token
but the last takes a character that is no blank, so their number bounds how often a new stream can
be pulled before it answers the end token (`Drains`).
-/

namespace ScriptFrontend

open Text Cursor

/-- A pull that moves the place in the source from `old` to `new` answers the token. -/
inductive Progress (source : String) (old : Nat) : (t : Token) → (new : Nat) → Prop where
  | done {suffix : String}
      (hsuffix : Span.textIn? ⟨old, source.utf8ByteSize⟩ source = some suffix)
      (hblank : Blank suffix.toList) :
      Progress source old (.eof source.utf8ByteSize) source.utf8ByteSize
  /-- After some blanks comes the character that the token begins with. -/
  | token {suffix : String} {gap more : List Char} {c : Char} {t : Token}
      (hsuffix : Span.textIn? ⟨old, source.utf8ByteSize⟩ source = some suffix)
      (hrest : suffix.toList = gap ++ c :: more) (hgap : Blank gap) (hc : isBlank c = false)
      (heof : t.isEof = false) (hstart : t.span.start = old + byteLength gap)
      (hnonempty : t.span.start < t.span.stop) (hadvance : old < t.span.stop) :
      Progress source old t t.span.stop

/-- The tokens of the source are `body` and the end token, however they are taken. -/
structure Drains (source : String) (body : List Token) : Prop where
  body_ne_eof : ∀ t ∈ body, t.isEof = false
  /-- There are no more of them than characters that are no blanks. -/
  length_le : body.length ≤ source.toList.countP fun c => !isBlank c
  tokenize_eq : tokenize source = body ++ [.eof source.utf8ByteSize]
  /-- The end token is the answer to the pull after those for `body`. -/
  pulls : ((TokenStream.ofSource source).serveAll (.replicate (body.length + 1) .pull)).1 =
    (body ++ [Token.eof source.utf8ByteSize]).map fun t => .token (some t)
  reader : (Reader.ofSource source).tokens? (body.length + 1) =
    some (body ++ [.eof source.utf8ByteSize])

/-! ## One pull -/

theorem Lexeme.Fits.exists_cons {l : Lexeme} {rest : List Char} (h : l.Fits rest) :
    ∃ c cs, l.text = c :: cs ∧ isBlank c = false := by
  obtain ⟨c, cs, htext, hc, -⟩ := Lexeme.scanned_of_fits h
  cases hl : l.text with
  | nil => exact absurd hl h.text_ne_nil
  | cons d ds =>
    rw [hl] at htext
    obtain rfl := (List.cons.inj htext).1
    exact ⟨d, ds, rfl, hc⟩

theorem Reader.Reads.progress {source : String} {p : Cursor} {r : Reader}
    (h : r.Reads source p) : Progress source p.offset p.next.1 p.next.2.offset := by
  obtain ⟨offset, rest⟩ := p
  obtain ⟨before, rfl, hat⟩ := h
  have hsource := hat.append_eq
  have hsize : source.utf8ByteSize = byteLength before + byteLength rest := by
    rw [← byteLength_toList, hsource, byteLength_append]
  have hsuffix : Span.textIn? ⟨byteLength before, source.utf8ByteSize⟩ source =
      some (String.ofList rest) := by
    have hcut := Span.textIn?_append before rest [] (by simpa using hsource)
    rwa [byteLength_append, ← hsize] at hcut
  rcases blank_or_exists_fits rest with hgap | ⟨gap, l, rest, hgap, hfits, rfl⟩
  · rw [next_of_blank hgap, ← hsize]
    exact .done hsuffix (by rwa [String.toList_ofList])
  · obtain ⟨c, cs, htext, hc⟩ := hfits.exists_cons
    have hpos := byteLength_pos_iff.mpr hfits.text_ne_nil
    have hlt : byteLength before + byteLength gap <
        byteLength before + byteLength gap + byteLength l.text := Nat.lt_add_of_pos_right hpos
    have hrest : (String.ofList (gap ++ l.text ++ rest)).toList = gap ++ c :: (cs ++ rest) := by
      rw [String.toList_ofList, htext, List.append_assoc, List.cons_append]
    rw [next_of_fits hgap hfits]
    exact .token (t := tokenAt _ l) hsuffix hrest hgap hc (isEof_tokenAt hfits.kind_ne_eof) rfl
      hlt (Nat.lt_of_le_of_lt (Nat.le_add_right _ _) hlt)

/-! ## Every pull -/

theorem Reader.Reads.after {source : String} {p : Cursor} {r : Reader} (h : r.Reads source p)
    (n : Nat) : ∃ q : Reader, q.Reads source (p.after n) := by
  induction n generalizing p r with
  | zero => exact ⟨r, h⟩
  | succ n ih =>
    obtain ⟨q, -, hq⟩ := h.nextToken
    exact ih hq

/-- The requests lead to a place that a reader can get to by pulling. -/
theorem TokenStream.exists_reads (source : String) (requests : List Request) :
    ∃ r : Reader, r.Reads source ((ofSource source).serveAll requests).2.cursor := by
  obtain ⟨-, hagrees⟩ := (Agrees.start source).serveAll requests
  rw [hagrees.cursor]
  exact (Reader.Reads.start source).after _

theorem Follows.progress {source : String} {ts : List (Option Token)} {s : TokenStream}
    {b : ReaderStream} (h : Follows source ts s b) :
    ∃ t b', b.pull = some (t, b') ∧
      Progress source b.reader.position t b'.reader.position := by
  obtain ⟨b', hpull, hfollows⟩ := h.pull
  refine ⟨_, b', hpull, ?_⟩
  rw [h.position_eq, hfollows.position_eq]
  exact h.reads.progress

/-! ## The number of pulls -/

theorem Reading.length_le {before rest : List Char} {ts : List Token}
    (h : Reading before rest ts) : ts.length ≤ rest.countP (fun c => !isBlank c) + 1 := by
  induction h with
  | done hgap => exact Nat.le_add_left _ _
  | @token before gap rest l ts hgap hfits h ih =>
    obtain ⟨c, cs, htext, hc⟩ := hfits.exists_cons
    have hpos : 0 < l.text.countP fun c => !isBlank c :=
      List.countP_pos_iff.mpr ⟨c, htext ▸ List.mem_cons_self, by rw [hc]; rfl⟩
    rw [List.length_cons, List.countP_append, List.countP_append]
    omega

theorem TokenStream.serveAll_pulls (s : TokenStream) (n : Nat) :
    (s.serveAll (.replicate n .pull)).1 =
      (List.range n).map fun i => .token (some (s.cursor.endless i)) := by
  induction n generalizing s with
  | zero => rfl
  | succ n ih =>
    rw [List.replicate_succ, serveAll, ih, List.range_succ_eq_map, List.map_cons, List.map_map,
      s.cursor.endless_zero]
    refine congrArg (_ :: ·) (List.map_congr_left fun i _ => ?_)
    exact congrArg (Answer.token <| some ·) (s.cursor.endless_succ i).symm

theorem drains_tokenize (source : String) : ∃ body, Drains source body := by
  obtain ⟨body, htokens, hbody⟩ := (Cursor.ofSource source).exists_tokens_eq
  rw [stop_ofSource] at htokens
  have hlength : (Cursor.ofSource source).tokens.length = body.length + 1 := by
    rw [htokens, List.length_append, List.length_singleton]
  have hendless : (List.range (body.length + 1)).map (Cursor.ofSource source).endless =
      body ++ [.eof source.utf8ByteSize] := by
    rw [← hlength, ← Cursor.tokens_eq_map_endless, htokens]
  have hle := (reading_tokenize source).length_le
  refine ⟨body, hbody, ?_, htokens, ?_, ?_⟩
  · rw [tokenize, hlength] at hle
    exact Nat.le_of_succ_le_succ hle
  · rw [TokenStream.serveAll_pulls, ← hendless, List.map_map]
    rfl
  · rw [(Reader.Reads.start source).tokens?, hendless]

theorem serveAll_progress (source : String) :
    (∀ requests, let s := ((TokenStream.ofSource source).serveAll requests).2
      Progress source s.cursor.offset s.pull.1 s.pull.2.cursor.offset) ∧
    (∀ steps, ∃ ts b t b', (ReaderStream.ofSource source).serveAll steps = some (ts, b) ∧
      b.pull = some (t, b') ∧ Progress source b.reader.position t b'.reader.position) ∧
    ∃ body, Drains source body := by
  refine ⟨fun requests => ?_, fun steps => ?_, drains_tokenize source⟩
  · obtain ⟨r, hr⟩ := TokenStream.exists_reads source requests
    exact hr.progress
  · obtain ⟨ts, b, hserve, -, hfollows⟩ := (Follows.start source).serveAll steps
    obtain ⟨t, b', hpull, hprogress⟩ := hfollows.progress
    exact ⟨ts, b, t, b', hserve, hpull, hprogress⟩

end ScriptFrontend
