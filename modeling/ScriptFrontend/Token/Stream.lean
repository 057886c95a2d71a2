import ScriptFrontend.Token.Cursor

/-!
# Token streams

A `TokenStream` hands out the tokens of one source in two ways that share a cursor. `pull` always
answers a token, the end token for ever at the end. The iterator `next?` stops for good once it
has itself yielded an end token, however many of those were pulled; `nth?`, `count` and `collect`
are runs of the iterator. A session is a list of requests, and `serveAll` answers them one after
another.
-/

namespace ScriptFrontend

structure TokenStream where
  cursor : Cursor
  /-- The iterator has yielded an end token. -/
  finished : Bool
  deriving DecidableEq, Repr

namespace TokenStream

def ofSource (source : String) : TokenStream := ⟨.ofSource source, false⟩

def pull (s : TokenStream) : Token × TokenStream :=
  let (t, cursor) := s.cursor.next
  (t, { s with cursor })

def next? (s : TokenStream) : Option Token × TokenStream :=
  if s.finished then
    (none, s)
  else
    let (t, s) := s.pull
    (some t, { s with finished := t.isEof })

/-- Passes over `n` tokens of the iterator and answers the one after them. -/
def nth? (s : TokenStream) : Nat → Option Token × TokenStream
  | 0 => s.next?
  | n + 1 =>
    match s.next? with
    | (none, s) => (none, s)
    | (some _, s) => s.nth? n

/-- Bounds how many tokens the iterator still yields. -/
def pending (s : TokenStream) : Nat := s.cursor.rest.length + if s.finished then 0 else 1

theorem pending_lt_of_next? {s r : TokenStream} {t : Token} (h : s.next? = (some t, r)) :
    r.pending < s.pending := by
  unfold next? at h
  split at h
  next => simp at h
  next hs =>
    obtain ⟨rfl, rfl⟩ : s.pull.1 = t ∧ { s.pull.2 with finished := s.pull.1.isEof } = r := by
      simpa using h
    have := s.cursor.length_rest_next
    simp only [pending, pull, hs]
    cases he : s.cursor.next.1.isEof <;>
      simp only [he, Bool.false_eq_true, reduceIte] at this ⊢ <;> omega

/-- Takes all tokens that the iterator still yields. -/
def collect (s : TokenStream) : List Token × TokenStream :=
  match _h : s.next? with
  | (none, s) => ([], s)
  | (some t, s) =>
    let (ts, s) := s.collect
    (t :: ts, s)
termination_by s.pending
decreasing_by exact pending_lt_of_next? _h

/-- Counts the tokens that the iterator still yields, and takes them. -/
def count (s : TokenStream) : Nat × TokenStream :=
  let (ts, s) := s.collect
  (ts.length, s)

end TokenStream

/-! ## Sessions -/

/-- What a stream can be asked for. `tokenize` takes what is left, as the last request. -/
inductive Request where
  | pull
  | next
  | nth (n : Nat)
  | count
  | collect
  | tokenize
  deriving DecidableEq, Repr

inductive Answer where
  | token (t? : Option Token)
  | number (n : Nat)
  | tokens (ts : List Token)
  deriving DecidableEq, Repr

namespace TokenStream

def serve (s : TokenStream) : Request → Answer × TokenStream
  | .pull => (.token (some s.pull.1), s.pull.2)
  | .next => (.token s.next?.1, s.next?.2)
  | .nth n => (.token (s.nth? n).1, (s.nth? n).2)
  | .count => (.number s.count.1, s.count.2)
  | .collect | .tokenize => (.tokens s.collect.1, s.collect.2)

/-- The answers to one request after another, and the stream after the last one. -/
def serveAll (s : TokenStream) : List Request → List Answer × TokenStream
  | [] => ([], s)
  | r :: rs => ((s.serve r).1 :: ((s.serve r).2.serveAll rs).1, ((s.serve r).2.serveAll rs).2)

end TokenStream

end ScriptFrontend
