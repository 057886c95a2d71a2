import ScriptFrontend.Span
import ScriptFrontend.Token.Stream

/-!
# Readers

A `Reader` takes its source character by character from a feed, and can look at the next character
before it takes it: that one then waits in a buffer. It counts the bytes of the characters taken
in a position of its own, and cuts the literals of tokens out of the source by such positions, so
each scan can fail where a cut does. `ReaderStream` is a token stream that reads this way.
-/

namespace ScriptFrontend

structure Reader where
  source : String
  /-- The characters that are still to come, and the byte offset of the first. -/
  feed : Cursor
  /-- What the feed gave when it was looked at: a character and its offset, or the end. -/
  buffered : Option (Option (Nat × Char))
  /-- The byte offset just past the last character taken. -/
  position : Nat

namespace Reader

def ofSource (source : String) : Reader := ⟨source, .ofSource source, none, 0⟩

/-- The next character of a feed with its byte offset. -/
def pop (feed : Cursor) : Option (Nat × Char) × Cursor :=
  match feed.rest with
  | [] => (none, feed)
  | c :: cs => (some (feed.offset, c), ⟨feed.offset + c.utf8Size, cs⟩)

/-- Looks at the next character, which waits in the buffer from then on. -/
def peek (r : Reader) : Option Char × Reader :=
  match r.buffered with
  | some item => (item.map Prod.snd, r)
  | none => ((pop r.feed).1.map Prod.snd,
      { r with feed := (pop r.feed).2, buffered := some (pop r.feed).1 })

/-- What waits in the buffer, or else comes from the feed. -/
def take (r : Reader) : Option (Nat × Char) × Reader :=
  match r.buffered with
  | some item => (item, { r with buffered := none })
  | none => ((pop r.feed).1, { r with feed := (pop r.feed).2 })

/-- Takes the next character; the position moves past it. -/
def advance (r : Reader) : Option Char × Reader :=
  match r.take with
  | (none, q) => (none, q)
  | (some (offset, c), q) => (some c, { q with position := offset + c.utf8Size })

/-- The number of characters that are not taken. -/
def pending (r : Reader) : Nat :=
  match r.buffered with
  | some (some _) => r.feed.rest.length + 1
  | _ => r.feed.rest.length

theorem pending_advance {r q : Reader} {c : Char} (h : r.advance = (some c, q)) :
    q.pending < r.pending := by
  obtain ⟨source, ⟨offset, rest⟩, buffered, position⟩ := r
  rcases buffered with _ | _ | ⟨start, d⟩
  · cases rest with
    | nil => cases h
    | cons d rest =>
      cases h
      exact Nat.lt_succ_self _
  · cases h
  · cases h
    exact Nat.lt_succ_self _

theorem pending_peek (r : Reader) : r.peek.2.pending = r.pending := by
  obtain ⟨source, ⟨offset, rest⟩, buffered, position⟩ := r
  rcases buffered with _ | _ | ⟨start, d⟩
  · cases rest <;> rfl
  · rfl
  · rfl

/-- The character seen is the next one taken. -/
theorem advance_peek {r q : Reader} {c : Char} (h : r.peek = (some c, q)) :
    q.advance.1 = some c := by
  obtain ⟨source, ⟨offset, rest⟩, buffered, position⟩ := r
  rcases buffered with _ | _ | ⟨start, d⟩
  · cases rest with
    | nil => cases h
    | cons d rest =>
      cases h
      rfl
  · cases h
  · cases h
    rfl

theorem pending_advance_peek {r q : Reader} {c : Char} (h : r.peek = (some c, q)) :
    q.advance.2.pending < r.pending := by
  rw [← r.pending_peek, h]
  exact pending_advance (c := c) (Prod.ext (advance_peek h) rfl)

/-- Takes characters of the class as long as it sees one. -/
def advanceWhile (p : Char → Bool) (r : Reader) : Reader :=
  match _h : r.peek with
  | (some c, q) => if p c then q.advance.2.advanceWhile p else q
  | (none, q) => q
termination_by r.pending
decreasing_by exact pending_advance_peek _h

theorem advanceWhile_of_none {p : Char → Bool} {r q : Reader} (h : r.peek = (none, q)) :
    r.advanceWhile p = q := by
  rw [advanceWhile]
  split <;> rename_i heq <;> rw [h] at heq <;> cases heq
  rfl

theorem advanceWhile_of_some {p : Char → Bool} {r q : Reader} {c : Char}
    (h : r.peek = (some c, q)) :
    r.advanceWhile p = if p c then q.advance.2.advanceWhile p else q := by
  rw [advanceWhile]
  split <;> rename_i heq <;> rw [h] at heq <;> cases heq
  rfl

/-- Takes the next character if it is the expected one. -/
def matchChar (expected : Char) (r : Reader) : Bool × Reader :=
  match r.peek with
  | (some c, q) => if c == expected then (true, q.advance.2) else (false, q)
  | (none, q) => (false, q)

/-- What was taken since the byte offset, unless the source cannot be cut there. -/
def taken? (r : Reader) (start : Nat) : Option String := Span.textIn? ⟨start, r.position⟩ r.source

/-- A token of what was taken since the byte offset. -/
def emit (r : Reader) (kind : TokenKind) (start : Nat) : Option (Token × Reader) := do
  let literal ← r.taken? start
  return (⟨kind, literal, ⟨start, r.position⟩⟩, r)

/-- Takes characters up to the next quote and the quote. Answers whether there is one, and where
what comes before it ends; `stop` is where that ends so far. -/
def takeBody (r : Reader) (stop : Nat) : Bool × Nat × Reader :=
  match _h : r.advance with
  | (none, q) => (false, stop, q)
  | (some c, q) => if c == '\"' then (true, stop, q) else q.takeBody q.position
termination_by r.pending
decreasing_by exact pending_advance _h

theorem takeBody_of_none {r q : Reader} {stop : Nat} (h : r.advance = (none, q)) :
    r.takeBody stop = (false, stop, q) := by
  rw [takeBody]
  split <;> rename_i heq <;> rw [h] at heq <;> cases heq
  rfl

theorem takeBody_of_some {r q : Reader} {stop : Nat} {c : Char} (h : r.advance = (some c, q)) :
    r.takeBody stop = if c == '\"' then (true, stop, q) else q.takeBody q.position := by
  rw [takeBody]
  split <;> rename_i heq <;> rw [h] at heq <;> cases heq
  rfl

def scanString (r : Reader) (start : Nat) : Option (Token × Reader) := do
  let (terminated, stop, q) := r.takeBody r.position
  let literal ← Span.textIn? ⟨r.position, stop⟩ q.source
  return (⟨.string terminated, literal, ⟨start, q.position⟩⟩, q)

def scanSymbol (r : Reader) (kind : TokenKind) (c : Char) (start : Nat) :
    Option (Token × Reader) :=
  match Operator.beforeEquals? c with
  | some o =>
    match r.matchChar '=' with
    | (true, q) => q.emit (.operator o) start
    | (false, q) => q.emit kind start
  | none => r.emit kind start

def scanNumber (r : Reader) (start : Nat) : Option (Token × Reader) := do
  let q := r.advanceWhile isNumberChar
  let run ← q.taken? start
  q.emit (.ofNumber run.toList) start

def scanWord (r : Reader) (start : Nat) : Option (Token × Reader) := do
  let q := r.advanceWhile isWordChar
  let word ← q.taken? start
  q.emit (.ofWord word) start

/-- The token that begins with the character `c`, taken last, at the byte offset. -/
def scan (r : Reader) (c : Char) (start : Nat) : Option (Token × Reader) :=
  if c == '\"' then
    r.scanString start
  else
    match TokenKind.ofSymbol? c with
    | some kind => r.scanSymbol kind c start
    | none =>
      if isNumberChar c then r.scanNumber start
      else if isWordChar c then r.scanWord start
      else r.emit .illegal start

/-- Takes one token, unless a literal cannot be cut out of the source. -/
def nextToken (r : Reader) : Option (Token × Reader) :=
  let q := r.advanceWhile isBlank
  match q.advance with
  | (none, p) => some (.eof q.position, p)
  | (some c, p) => p.scan c q.position

/-- The next tokens of a reader, unless one fails. -/
def tokens? (r : Reader) : Nat → Option (List Token)
  | 0 => some []
  | n + 1 => do
    let (t, r) ← r.nextToken
    let ts ← r.tokens? n
    return t :: ts

end Reader

/-! ## Streams that read -/

/-- A stream is asked for a token or takes a step of its iterator. -/
inductive Step where
  | pull
  | next
  deriving DecidableEq, Repr

def Step.request : Step → Request
  | pull => .pull
  | next => .next

/-- A token stream with a reader for its cursor. -/
structure ReaderStream where
  reader : Reader
  /-- The iterator has yielded an end token. -/
  finished : Bool

namespace ReaderStream

def ofSource (source : String) : ReaderStream := ⟨.ofSource source, false⟩

def pull (s : ReaderStream) : Option (Token × ReaderStream) := do
  let (t, reader) ← s.reader.nextToken
  return (t, { s with reader })

def next? (s : ReaderStream) : Option (Option Token × ReaderStream) :=
  if s.finished then
    some (none, s)
  else do
    let (t, s) ← s.pull
    return (some t, { s with finished := t.isEof })

def serve (s : ReaderStream) : Step → Option (Option Token × ReaderStream)
  | .pull => do
    let (t, s) ← s.pull
    return (some t, s)
  | .next => s.next?

/-- The tokens for one step after another, and the stream after the last, unless one fails. -/
def serveAll (s : ReaderStream) : List Step → Option (List (Option Token) × ReaderStream)
  | [] => some ([], s)
  | step :: steps => do
    let (t?, s) ← s.serve step
    let (ts, s) ← s.serveAll steps
    return (t? :: ts, s)

end ReaderStream

end ScriptFrontend
