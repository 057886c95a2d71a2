import ScriptFrontend.Proofs.Stream.History
import ScriptFrontend.Proofs.Stream.Lookahead
import ScriptFrontend.Proofs.Tokenize.Concatenation

/-!
# Going on from any place

A stream remembers nothing of what it has read. Wherever its steps lead, it stands between two
characters of its source, and goes on as a new stream on the rest of the source would, except that
its tokens are as many bytes further on (`resumes_serveAll`). The same is true of a stream whose
tokens come from a `Reader`: the character that waits in its buffer is the first of the rest.
-/

namespace ScriptFrontend

open Text

/-! ## Readers that go on -/

theorem Reader.Reads.tokens? {source : String} {p : Cursor} {r : Reader}
    (h : Reader.Reads source p r) (n : Nat) :
    r.tokens? n = some ((List.range n).map p.endless) := by
  induction n generalizing p r with
  | zero => rfl
  | succ n ih =>
    obtain ⟨q, htoken, hq⟩ := h.nextToken
    simp only [Reader.tokens?, htoken, ih hq, Option.bind_eq_bind, Option.bind_some]
    rw [List.range_succ_eq_map, List.map_cons, List.map_map, p.endless_zero]
    refine congrArg (fun ts => some (p.next.1 :: ts)) (List.map_congr_left fun i _ => ?_)
    exact (p.endless_succ i).symm

/-! ## Moving a stream -/

/-- The place of the same text with `n` more bytes before it. -/
def Cursor.shift (n : Nat) (p : Cursor) : Cursor := ⟨n + p.offset, p.rest⟩

def Answer.shift (n : Nat) : Answer → Answer
  | token t? => token (t?.map (Token.shift n))
  | number k => number k
  | tokens ts => tokens (ts.map (Token.shift n))

def TokenStream.shift (n : Nat) (s : TokenStream) : TokenStream :=
  { s with cursor := s.cursor.shift n }

namespace Cursor

theorem next_shift (n : Nat) (p : Cursor) :
    (p.shift n).next = (p.next.1.shift n, p.next.2.shift n) := by
  obtain ⟨offset, rest⟩ := p
  rcases blank_or_exists_fits rest with hgap | ⟨gap, l, rest, hgap, hfits, rfl⟩
  · rw [shift, next_of_blank hgap, next_of_blank hgap, Token.shift_eof, shift, Nat.add_assoc]
  · rw [shift, next_of_fits hgap hfits, next_of_fits hgap hfits, Token.shift_tokenAt, shift]
    simp only [Nat.add_assoc]

theorem endless_shift (n : Nat) (p : Cursor) (i : Nat) :
    (p.shift n).endless i = (p.endless i).shift n := by
  induction i generalizing p with
  | zero => rw [endless_zero, endless_zero, next_shift]
  | succ i ih => rw [endless_succ, endless_succ, next_shift, ih]

theorem after_shift (n : Nat) (p : Cursor) (k : Nat) :
    (p.shift n).after k = (p.after k).shift n := by
  induction k generalizing p with
  | zero => rfl
  | succ k ih => rw [after, after, next_shift, ih]

theorem tokens_eq_map_shift (n : Nat) (p : Cursor) :
    (p.shift n).tokens = p.tokens.map (Token.shift n) := by
  obtain ⟨offset, rest⟩ := p
  obtain ⟨pre, rfl⟩ := exists_byteLength n
  obtain ⟨before, rfl⟩ := exists_byteLength offset
  rw [shift, ← byteLength_append]
  exact ((reading_tokens before rest).shift pre).tokens_eq

/-- A token ends where the cursor is after it. -/
theorem stop_span_next (p : Cursor) : p.next.1.span.stop = p.next.2.offset := by
  obtain ⟨offset, rest⟩ := p
  rcases blank_or_exists_fits rest with hgap | ⟨gap, l, rest, hgap, hfits, rfl⟩
  · rw [next_of_blank hgap]
    rfl
  · rw [next_of_fits hgap hfits]
    rfl

end Cursor

namespace TokenStream

theorem upcoming_shift (n : Nat) (s : TokenStream) :
    (s.shift n).upcoming = s.upcoming.map (Token.shift n) := by
  rw [upcoming, upcoming, shift, Cursor.tokens_eq_map_shift]
  split <;> rfl

theorem advance_shift (n : Nat) (s : TokenStream) (k : Nat) :
    (s.shift n).advance k = (s.advance k).shift n := by
  rw [advance, upcoming_shift, ← List.map_take, List.length_map, List.any_map]
  exact congrArg (TokenStream.mk · _) (s.cursor.after_shift n _)

theorem serve_shift (n : Nat) (s : TokenStream) (r : Request) :
    (s.shift n).serve r = ((s.serve r).1.shift n, (s.serve r).2.shift n) := by
  cases r with
  | pull =>
    simp only [serve, pull, shift, Cursor.next_shift]
    rfl
  | next =>
    simp only [serve, next?_eq, upcoming_shift, advance_shift, List.head?_map]
    rfl
  | nth k =>
    simp only [serve, nth?_eq, upcoming_shift, advance_shift, List.getElem?_map]
    rfl
  | count =>
    simp only [serve, count, collect_eq, upcoming_shift, advance_shift, List.length_map]
    rfl
  | collect =>
    simp only [serve, collect_eq, upcoming_shift, advance_shift, List.length_map]
    rfl
  | tokenize =>
    simp only [serve, collect_eq, upcoming_shift, advance_shift, List.length_map]
    rfl

/-- More bytes before the text do not matter to a stream but for the places of its tokens. -/
theorem serveAll_shift (n : Nat) (s : TokenStream) (requests : List Request) :
    (s.shift n).serveAll requests =
      ((s.serveAll requests).1.map (Answer.shift n), (s.serveAll requests).2.shift n) := by
  induction requests generalizing s with
  | nil => rfl
  | cons r rs ih =>
    rw [serveAll, serve_shift, ih]
    rfl

end TokenStream

/-! ## Two streams at one place -/

/-- After both streams gave `ts`, they are at one place of the source. -/
structure Follows (source : String) (ts : List (Option Token)) (s : TokenStream)
    (b : ReaderStream) : Prop where
  reads : b.reader.Reads source s.cursor
  finished : b.finished = s.finished
  /-- The last token ends there, and an end token also where the source does. -/
  last : ∀ t, ts.getLast? = some (some t) → s.cursor.offset = t.span.stop ∧
    (t.isEof = true → s.cursor.offset = source.utf8ByteSize)

namespace Follows

variable {source : String} {ts : List (Option Token)} {s : TokenStream} {b : ReaderStream}

theorem start (source : String) : Follows source [] (.ofSource source) (.ofSource source) :=
  ⟨.start source, rfl, nofun⟩

theorem position_eq (h : Follows source ts s b) : b.reader.position = s.cursor.offset := by
  obtain ⟨before, hoffset, hat⟩ := h.reads
  rw [hat.position_eq, hoffset]

theorem stop_cursor (h : Follows source ts s b) : s.cursor.stop = source.utf8ByteSize := by
  obtain ⟨before, hoffset, hat⟩ := h.reads
  rw [Cursor.stop, hoffset, ← byteLength_append, ← hat.append_eq, byteLength_toList]

theorem pull (h : Follows source ts s b) :
    ∃ b', b.pull = some (s.pull.1, b') ∧
      Follows source (ts ++ [some s.pull.1]) s.pull.2 b' := by
  obtain ⟨q, htoken, hq⟩ := h.reads.nextToken
  refine ⟨{ b with reader := q }, ?_, hq, h.finished, fun t ht => ?_⟩
  · rw [ReaderStream.pull, htoken]
    rfl
  · rw [List.getLast?_concat] at ht
    obtain rfl := Option.some.inj (Option.some.inj ht)
    have hstop := s.cursor.stop_span_next
    refine ⟨hstop.symm, fun heof => ?_⟩
    rcases s.cursor.next_cases with ⟨hend, -, -⟩ | ⟨hno, -⟩
    · rw [hend] at hstop
      exact hstop.symm.trans h.stop_cursor
    · rw [show s.pull.1 = s.cursor.next.1 from rfl, hno] at heof
      cases heof

theorem serve (h : Follows source ts s b) (step : Step) :
    ∃ t? b', b.serve step = some (t?, b') ∧ (s.serve step.request).1 = .token t? ∧
      Follows source (ts ++ [t?]) (s.serve step.request).2 b' := by
  obtain ⟨b', hpull, hb'⟩ := h.pull
  cases step with
  | pull =>
    refine ⟨_, b', ?_, rfl, hb'⟩
    rw [ReaderStream.serve, hpull]
    rfl
  | next =>
    rw [ReaderStream.serve, ReaderStream.next?, Step.request, TokenStream.serve,
      TokenStream.next?, h.finished]
    cases s.finished with
    | true =>
      refine ⟨none, b, rfl, rfl, h.reads, h.finished, fun t ht => ?_⟩
      rw [List.getLast?_concat] at ht
      cases ht
    | false =>
      rw [hpull]
      exact ⟨_, _, rfl, rfl, hb'.reads, rfl, hb'.last⟩

theorem serveAll (h : Follows source ts s b) (steps : List Step) :
    ∃ us b', b.serveAll steps = some (us, b') ∧
      (s.serveAll (steps.map Step.request)).1 = us.map Answer.token ∧
      Follows source (ts ++ us) (s.serveAll (steps.map Step.request)).2 b' := by
  induction steps generalizing ts s b with
  | nil => exact ⟨[], b, rfl, rfl, by rwa [List.append_nil]⟩
  | cons step steps ih =>
    obtain ⟨t?, b₁, hserve, hanswer, hb₁⟩ := h.serve step
    obtain ⟨us, b₂, hall, hanswers, hb₂⟩ := ih hb₁
    rw [List.append_assoc, List.singleton_append] at hb₂
    refine ⟨t? :: us, b₂, ?_, ?_, hb₂⟩
    · simp only [ReaderStream.serveAll, hserve, hall, Option.bind_eq_bind, Option.bind_some,
        Option.pure_def]
    · rw [List.map_cons, TokenStream.serveAll, hanswer, hanswers, List.map_cons]

end Follows

/-! ## Going on -/

/-- Where the streams are after they gave `ts`, and how they go on from there. -/
structure Resumes (source suffix : String) (ts : List (Option Token)) (s : TokenStream)
    (b : ReaderStream) : Prop where
  boundary : String.Pos.Raw.IsValid source ⟨b.reader.position⟩
  suffix_eq : Span.textIn? ⟨b.reader.position, source.utf8ByteSize⟩ source = some suffix
  /-- The buffer and the feed hold the rest of the source, each character of it once. -/
  holds : b.reader.Holds suffix.toList
  cursor_eq : s.cursor = ⟨b.reader.position, suffix.toList⟩
  /-- The reader has the tokens of a new one on the rest. -/
  reader : ∀ n, ∃ us, (Reader.ofSource suffix).tokens? n = some us ∧
    b.reader.tokens? n = some (us.map (Token.shift b.reader.position))
  /-- The stream goes on as a new one on the rest, whose iterator is as far as its own. -/
  stream : ∀ requests, (s.serveAll requests).1 =
    (TokenStream.serveAll ⟨.ofSource suffix, s.finished⟩ requests).1.map
      (Answer.shift b.reader.position)
  after_token : ∀ t, ts.getLast? = some (some t) → t.isEof = false →
    b.reader.position = t.span.stop
  after_end : ∀ t, ts.getLast? = some (some t) → t.isEof = true →
    b.reader.position = source.utf8ByteSize

theorem Follows.resumes {source : String} {ts : List (Option Token)} {s : TokenStream}
    {b : ReaderStream} (h : Follows source ts s b) : ∃ suffix, Resumes source suffix ts s b := by
  obtain ⟨before, hoffset, hat⟩ := h.reads
  have hposition := h.position_eq
  have hcursor : s.cursor =
      (Cursor.ofSource (String.ofList s.cursor.rest)).shift b.reader.position := by
    rw [Cursor.shift, Cursor.ofSource, String.toList_ofList, Nat.add_zero, hposition]
  have hstream : s =
      TokenStream.shift b.reader.position ⟨.ofSource (String.ofList s.cursor.rest), s.finished⟩ :=
    congrArg (TokenStream.mk · s.finished) hcursor
  refine ⟨String.ofList s.cursor.rest, ?_⟩
  exact {
    boundary := by
      rw [hat.position_eq]
      exact isValid_byteLength hat.append_eq
    suffix_eq := by
      have hcut := Span.textIn?_append before s.cursor.rest [] (by simpa using hat.append_eq)
      rwa [← hat.append_eq, byteLength_toList, ← hat.position_eq] at hcut
    holds := by
      rw [String.toList_ofList]
      exact hat.holds
    cursor_eq := by rw [String.toList_ofList, hposition]
    reader := fun n => by
      refine ⟨_, (Reader.Reads.start _).tokens? n, ?_⟩
      rw [h.reads.tokens? n, List.map_map]
      refine congrArg some (List.map_congr_left fun i _ => ?_)
      exact (congrArg (·.endless i) hcursor).trans (Cursor.endless_shift _ _ i)
    stream := fun requests => by
      have hshift := TokenStream.serveAll_shift b.reader.position
        ⟨.ofSource (String.ofList s.cursor.rest), s.finished⟩ requests
      rw [← hstream] at hshift
      exact congrArg Prod.fst hshift
    after_token := fun t ht _ => hposition.trans (h.last t ht).1
    after_end := fun t ht heof => hposition.trans ((h.last t ht).2 heof) }

theorem resumes_serveAll (source : String) (steps : List Step) :
    ∃ ts s b suffix,
      (TokenStream.ofSource source).serveAll (steps.map Step.request) = (ts.map Answer.token, s) ∧
      (ReaderStream.ofSource source).serveAll steps = some (ts, b) ∧
      Resumes source suffix ts s b := by
  obtain ⟨ts, b, hreader, hanswers, hfollows⟩ := (Follows.start source).serveAll steps
  obtain ⟨suffix, hresumes⟩ := hfollows.resumes
  exact ⟨ts, _, b, suffix, Prod.ext hanswers rfl, hreader, hresumes⟩

/-- After the word, the character that ends it waits in the buffer and is not taken yet. -/
example :
    ((ReaderStream.ofSource "ab=1").serveAll [.pull]).map
        (fun r => (r.1, r.2.reader.buffered, r.2.reader.position)) =
      some ([some ⟨.ident, "ab", ⟨0, 2⟩⟩], some (some (2, '=')), 2) := by decide +kernel

end ScriptFrontend
