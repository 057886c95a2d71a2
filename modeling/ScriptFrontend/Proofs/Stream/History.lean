import ScriptFrontend.Proofs.Stream.Upcoming

/-!
# One stream behind two interfaces

A stream serves requests to pull a token and requests to its iterator, in any order. A history
keeps each request with the tokens that are scanned for it, and is worked out from the tokens of
the source alone: whichever request comes next takes the tokens that come next, and the iterator
has no more once one of its own requests has taken the end token. `serveAll_delivers` says that a
stream answers as its history has it, and `Delivers` what follows for the stream at that point.
-/

namespace ScriptFrontend

/-! ## Histories -/

/-- All requests but pulling go through the iterator. -/
def Request.isIterator : Request → Bool
  | pull => false
  | _ => true

/-- The answer that goes with the tokens scanned for the request. -/
def Request.answer (taken : List Token) : Request → Answer
  | pull | next => .token taken.head?
  | nth n => .token taken[n]?
  | count => .number taken.length
  | collect | tokenize => .tokens taken

/-- A request with the tokens that are scanned for it. -/
structure Served where
  request : Request
  taken : List Token
  deriving DecidableEq, Repr

abbrev History := List Served

/-- The tokens of the source, and then its end token again and again. -/
def endlessTokens (source : String) (i : Nat) : Token :=
  (tokenize source).getD i (.eof source.utf8ByteSize)

namespace History

/-- All tokens scanned so far, whether they were returned or not. -/
def scanned (h : History) : List Token := h.flatMap Served.taken

/-- A request to the iterator has yielded an end token, passed over it or counted it. -/
def ended (h : History) : Bool := h.any fun v => v.request.isIterator && v.taken.any Token.isEof

def answers (h : History) : List Answer := h.map fun v => v.request.answer v.taken

/-- How many tokens the iterator still has. -/
def left (source : String) (h : History) : Nat :=
  if h.ended then 0 else max 1 ((tokenize source).length - h.scanned.length)

/-- The tokens that the iterator still has. -/
def upcoming (source : String) (h : History) : List Token :=
  (List.range (h.left source)).map fun i => endlessTokens source (h.scanned.length + i)

/-- The tokens that the next request takes. -/
def taken (source : String) (h : History) : Request → List Token
  | .pull => [endlessTokens source h.scanned.length]
  | .next => (h.upcoming source).take 1
  | .nth n => (h.upcoming source).take (n + 1)
  | .count | .collect | .tokenize => h.upcoming source

/-- The history with one more request. -/
def serve (source : String) (h : History) (r : Request) : History :=
  h ++ [⟨r, h.taken source r⟩]

@[simp] theorem scanned_serve (source : String) (h : History) (r : Request) :
    (h.serve source r).scanned = h.scanned ++ h.taken source r := by
  simp [serve, scanned]

@[simp] theorem ended_serve (source : String) (h : History) (r : Request) :
    (h.serve source r).ended =
      (h.ended || r.isIterator && (h.taken source r).any Token.isEof) := by
  simp [serve, ended]

@[simp] theorem answers_serve (source : String) (h : History) (r : Request) :
    (h.serve source r).answers = h.answers ++ [r.answer (h.taken source r)] := by
  simp [serve, answers]

/-- The history with one request after another. -/
def serveAll (source : String) (h : History) (requests : List Request) : History :=
  requests.foldl (History.serve source) h

end History

/-- What a stream does after the history. -/
structure Delivers (source : String) (h : History) (s : TokenStream) : Prop where
  /-- The tokens scanned are those of the source, none lost, repeated or out of place. -/
  scanned : h.scanned = (List.range h.scanned.length).map (endlessTokens source)
  /-- The stream stands where that many tokens, taken one after another, lead to. -/
  cursor : s.cursor = (Cursor.ofSource source).after h.scanned.length
  pull : s.pull.1 = endlessTokens source h.scanned.length
  /-- After the tokens of the source, pulling gives the end token for ever. -/
  pull_end : (tokenize source).length ≤ h.scanned.length → s.pull.1 = .eof source.utf8ByteSize
  /-- Once the iterator has ended, and only then, it scans nothing. -/
  idle_iff : ∀ r : Request, r.isIterator = true → (h.taken source r = [] ↔ h.ended = true)
  idle : ∀ r : Request, r.isIterator = true → h.ended = true → (s.serve r).2 = s
  next_none : s.next?.1 = none ↔ h.ended = true
  count : s.count.1 = h.left source
  collect : s.collect.1 = h.upcoming source
  /-- The iterator still has one end token, and it is the last token that it has. -/
  collect_end : h.ended = false → ∃ body,
    s.collect.1 = body ++ [.eof source.utf8ByteSize] ∧ ∀ t ∈ body, t.isEof = false
  nth : ∀ n, (s.nth? n).1 = (h.upcoming source)[n]?
  nth_none : ∀ n, (s.nth? n).1 = none ↔ h.left source ≤ n

/-! ## A stream and its history -/

theorem stop_ofSource (source : String) : (Cursor.ofSource source).stop = source.utf8ByteSize := by
  rw [Cursor.stop, Cursor.ofSource, Text.byteLength_toList, Nat.zero_add]

theorem endless_ofSource (source : String) (i : Nat) :
    (Cursor.ofSource source).endless i = endlessTokens source i := by
  rw [Cursor.endless, stop_ofSource]
  rfl

/-- A request to the iterator makes it pass some tokens. -/
theorem TokenStream.exists_serve_eq_advance (s : TokenStream) {r : Request}
    (hr : r.isIterator = true) : ∃ n, (s.serve r).2 = s.advance n := by
  cases r with
  | pull => cases hr
  | next => exact ⟨1, by rw [serve, next?_eq]⟩
  | nth n => exact ⟨n + 1, by rw [serve, nth?_eq]⟩
  | count => exact ⟨_, by rw [serve, TokenStream.count, collect_eq]⟩
  | collect => exact ⟨_, by rw [serve, collect_eq]⟩
  | tokenize => exact ⟨_, by rw [serve, collect_eq]⟩

/-- The stream is where the history leaves it. -/
structure Agrees (source : String) (h : History) (s : TokenStream) : Prop where
  cursor : s.cursor = (Cursor.ofSource source).after h.scanned.length
  finished : s.finished = h.ended

namespace Agrees

variable {source : String} {h : History} {s : TokenStream}

theorem pull (hs : Agrees source h s) : s.pull.1 = endlessTokens source h.scanned.length := by
  rw [TokenStream.pull, hs.cursor, Cursor.next_after, endless_ofSource]

theorem upcoming (hs : Agrees source h s) : s.upcoming = h.upcoming source := by
  rw [TokenStream.upcoming, hs.finished, History.upcoming, History.left]
  cases h.ended with
  | true => rfl
  | false =>
    have hlength := (Cursor.ofSource source).length_tokens_after h.scanned.length
    rw [hs.cursor, Cursor.tokens_eq_map_endless, hlength]
    refine List.map_congr_left fun i _ => ?_
    rw [Cursor.endless_after, endless_ofSource]

/-- The iterator takes some of the tokens it has, and the history takes note. -/
theorem advance (hs : Agrees source h s) {r : Request} (hr : r.isIterator = true) {n : Nat}
    (htaken : h.taken source r = (h.upcoming source).take n) :
    Agrees source (h.serve source r) (s.advance n) where
  cursor := by
    rw [TokenStream.advance, hs.upcoming, ← htaken, hs.cursor, Cursor.after_after,
      History.scanned_serve, List.length_append]
  finished := by
    rw [TokenStream.advance, hs.upcoming, ← htaken, hs.finished, History.ended_serve, hr,
      Bool.true_and]

theorem pulled (hs : Agrees source h s) : Agrees source (h.serve source .pull) s.pull.2 where
  cursor := by
    rw [History.scanned_serve, List.length_append, ← Cursor.after_after, ← hs.cursor]
    rfl
  finished := by
    rw [History.ended_serve, ← hs.finished]
    exact (Bool.or_false _).symm

theorem serve (hs : Agrees source h s) (r : Request) :
    (s.serve r).1 = r.answer (h.taken source r) ∧
      Agrees source (h.serve source r) (s.serve r).2 := by
  have hall : h.upcoming source = (h.upcoming source).take (h.upcoming source).length :=
    List.take_length.symm
  cases r with
  | pull =>
    refine ⟨?_, hs.pulled⟩
    rw [TokenStream.serve, hs.pull]
    rfl
  | next =>
    rw [TokenStream.serve, TokenStream.next?_eq, hs.upcoming]
    refine ⟨?_, hs.advance rfl rfl⟩
    rw [Request.answer, History.taken, List.head?_take, if_neg Nat.one_ne_zero]
  | nth n =>
    rw [TokenStream.serve, TokenStream.nth?_eq, hs.upcoming]
    refine ⟨?_, hs.advance rfl rfl⟩
    rw [Request.answer, History.taken, List.getElem?_take_of_lt (Nat.lt_succ_self n)]
  | count =>
    rw [TokenStream.serve, TokenStream.count, TokenStream.collect_eq, hs.upcoming]
    exact ⟨rfl, hs.advance rfl hall⟩
  | collect =>
    rw [TokenStream.serve, TokenStream.collect_eq, hs.upcoming]
    exact ⟨rfl, hs.advance rfl hall⟩
  | tokenize =>
    rw [TokenStream.serve, TokenStream.collect_eq, hs.upcoming]
    exact ⟨rfl, hs.advance rfl hall⟩

theorem start (source : String) : Agrees source [] (.ofSource source) := ⟨rfl, rfl⟩

theorem serveAll (hs : Agrees source h s) (requests : List Request) :
    (h.serveAll source requests).answers = h.answers ++ (s.serveAll requests).1 ∧
      Agrees source (h.serveAll source requests) (s.serveAll requests).2 := by
  induction requests generalizing h s with
  | nil => exact ⟨(List.append_nil _).symm, hs⟩
  | cons r rs ih =>
    obtain ⟨hanswer, hnext⟩ := hs.serve r
    obtain ⟨hanswers, hlast⟩ := ih hnext
    refine ⟨?_, hlast⟩
    rw [History.serveAll, List.foldl_cons, ← History.serveAll, hanswers, History.answers_serve,
      TokenStream.serveAll, hanswer, List.append_assoc, List.singleton_append]

end Agrees

/-! ## What the stream delivers -/

namespace History

variable {source : String} {h : History}

theorem map_request_serveAll (source : String) (h : History) (requests : List Request) :
    (h.serveAll source requests).map Served.request = h.map Served.request ++ requests := by
  induction requests generalizing h with
  | nil => exact (List.append_nil _).symm
  | cons r rs ih =>
    rw [serveAll, List.foldl_cons, ← serveAll, ih]
    simp [serve]

/-- What the iterator takes is a part of what it has from the front. -/
theorem taken_cases (source : String) (h : History) (r : Request) :
    h.taken source r = [endlessTokens source h.scanned.length] ∨
      ∃ n, h.taken source r = (h.upcoming source).take n := by
  cases r with
  | pull => exact .inl rfl
  | next => exact .inr ⟨1, rfl⟩
  | nth n => exact .inr ⟨n + 1, rfl⟩
  | count => exact .inr ⟨_, List.take_length.symm⟩
  | collect => exact .inr ⟨_, List.take_length.symm⟩
  | tokenize => exact .inr ⟨_, List.take_length.symm⟩

/-- A request takes the tokens that follow those scanned before. -/
theorem taken_eq (source : String) (h : History) (r : Request) :
    h.taken source r = (List.range (h.taken source r).length).map fun i =>
      endlessTokens source (h.scanned.length + i) := by
  rcases taken_cases source h r with htaken | ⟨n, htaken⟩
  · rw [htaken]
    rfl
  · rw [htaken, upcoming, ← List.map_take, List.length_map, List.take_range, List.length_range]

/-- The history has scanned the tokens from the first on. -/
def InOrder (source : String) (h : History) : Prop :=
  h.scanned = (List.range h.scanned.length).map (endlessTokens source)

theorem InOrder.serve (hh : InOrder source h) (r : Request) :
    InOrder source (h.serve source r) := by
  rw [InOrder, scanned_serve, List.length_append, List.range_add, List.map_append, List.map_map]
  exact congrArg₂ (· ++ ·) hh (taken_eq source h r)

theorem InOrder.serveAll (hh : InOrder source h) (requests : List Request) :
    InOrder source (h.serveAll source requests) := by
  induction requests generalizing h with
  | nil => exact hh
  | cons r rs ih => exact ih (hh.serve r)

theorem left_eq_zero_iff : h.left source = 0 ↔ h.ended = true := by
  rw [left]
  split
  next hended => exact iff_of_true rfl hended
  next hended => exact iff_of_false (by omega) hended

theorem length_upcoming (source : String) (h : History) :
    (h.upcoming source).length = h.left source := by
  rw [upcoming, List.length_map, List.length_range]

theorem taken_eq_nil_iff {r : Request} (hr : r.isIterator = true) :
    h.taken source r = [] ↔ h.ended = true := by
  have hnil : h.upcoming source = [] ↔ h.ended = true := by
    rw [← List.length_eq_zero_iff, length_upcoming, left_eq_zero_iff]
  cases r with
  | pull => cases hr
  | next => simpa [taken] using hnil
  | nth n => simpa [taken] using hnil
  | count => exact hnil
  | collect => exact hnil
  | tokenize => exact hnil

end History

theorem Agrees.delivers {source : String} {h : History} {s : TokenStream}
    (hs : Agrees source h s) (hh : h.InOrder source) : Delivers source h s where
  scanned := hh
  cursor := hs.cursor
  pull := hs.pull
  pull_end hend := by
    rw [hs.pull, endlessTokens, List.getD_eq_getElem?_getD, List.getElem?_eq_none hend]
    rfl
  idle_iff r hr := History.taken_eq_nil_iff hr
  idle r hr hended := by
    obtain ⟨n, hserve⟩ := s.exists_serve_eq_advance hr
    rw [hserve, s.advance_of_finished (hs.finished.trans hended)]
  next_none := by
    rw [TokenStream.next?_eq, hs.upcoming, List.head?_eq_none_iff, ← List.length_eq_zero_iff,
      History.length_upcoming, History.left_eq_zero_iff]
  count := by
    rw [TokenStream.count, TokenStream.collect_eq, hs.upcoming]
    exact History.length_upcoming source h
  collect := by rw [TokenStream.collect_eq, hs.upcoming]
  collect_end hended := by
    obtain ⟨body, htokens, hbody⟩ := s.cursor.exists_tokens_eq
    have hstop : s.cursor.stop = source.utf8ByteSize := by
      rw [hs.cursor, Cursor.stop_after, stop_ofSource]
    refine ⟨body, ?_, hbody⟩
    rw [TokenStream.collect_eq, TokenStream.upcoming, hs.finished, hended, htokens, hstop]
    rfl
  nth n := by rw [TokenStream.nth?_eq, hs.upcoming]
  nth_none n := by
    rw [TokenStream.nth?_eq, hs.upcoming, List.getElem?_eq_none_iff, History.length_upcoming]

theorem serveAll_delivers (source : String) (requests : List Request) :
    let h := History.serveAll source [] requests
    h.map Served.request = requests ∧
      h.answers = ((TokenStream.ofSource source).serveAll requests).1 ∧
      Delivers source h ((TokenStream.ofSource source).serveAll requests).2 := by
  intro h
  obtain ⟨hanswers, hagrees⟩ := (Agrees.start source).serveAll requests
  have hstart : History.InOrder source [] := rfl
  have horder : h.InOrder source := hstart.serveAll requests
  exact ⟨History.map_request_serveAll source [] requests, hanswers, hagrees.delivers horder⟩

end ScriptFrontend
