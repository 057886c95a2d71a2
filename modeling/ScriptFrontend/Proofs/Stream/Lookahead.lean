import ScriptFrontend.Proofs.Tokenize.Reading
import ScriptFrontend.Token.Reader

/-!
# Reading with one character of lookahead

`Reader.At` says that the position of a reader, its buffer and its feed denote one place of the
source. All that a reader does keeps this, and so its cuts never fail and it yields what a cursor
yields (`Reader.Reads.nextToken`).
-/

namespace ScriptFrontend

open Text Cursor

namespace Reader

/-! ## One place of the source -/

/-- The buffer and the feed hold the text from the position on: what waits in the buffer is its
first character, and what is in the feed the rest. -/
def Holds (r : Reader) (rest : List Char) : Prop :=
  match r.buffered with
  | none => r.feed = ⟨r.position, rest⟩
  | some none => rest = [] ∧ r.feed = ⟨r.position, []⟩
  | some (some (offset, c)) =>
    offset = r.position ∧ rest = c :: r.feed.rest ∧ r.feed.offset = r.position + c.utf8Size

/-- The reader of the source has taken `before` and holds `rest`. -/
structure At (source : String) (before rest : List Char) (r : Reader) : Prop where
  source_eq : r.source = source
  append_eq : source.toList = before ++ rest
  position_eq : r.position = byteLength before
  holds : r.Holds rest

namespace At

variable {source : String} {before rest text : List Char} {c : Char} {r : Reader}

theorem start (source : String) : At source [] source.toList (ofSource source) :=
  ⟨rfl, rfl, rfl, rfl⟩

theorem peek (h : At source before rest r) :
    ∃ q, r.peek = (rest.head?, q) ∧ At source before rest q := by
  obtain ⟨source', ⟨offset, feed⟩, buffered, position⟩ := r
  have hholds := h.holds
  rcases buffered with _ | _ | ⟨start, d⟩
  · obtain ⟨rfl, rfl⟩ := Cursor.mk.inj hholds
    cases feed with
    | nil => exact ⟨_, rfl, h.source_eq, h.append_eq, h.position_eq, rfl, rfl⟩
    | cons c cs => exact ⟨_, rfl, h.source_eq, h.append_eq, h.position_eq, rfl, rfl, rfl⟩
  · obtain ⟨rfl, -⟩ := hholds
    exact ⟨_, rfl, h⟩
  · obtain ⟨-, rfl, -⟩ := hholds
    exact ⟨_, rfl, h⟩

theorem advance_nil (h : At source before [] r) :
    ∃ q, r.advance = (none, q) ∧ At source before [] q := by
  obtain ⟨source', ⟨offset, feed⟩, buffered, position⟩ := r
  have hholds := h.holds
  rcases buffered with _ | _ | ⟨start, d⟩
  · obtain ⟨rfl, rfl⟩ := Cursor.mk.inj hholds
    exact ⟨_, rfl, h.source_eq, h.append_eq, h.position_eq, rfl⟩
  · exact ⟨_, rfl, h.source_eq, h.append_eq, h.position_eq, hholds.2⟩
  · cases hholds.2.1

theorem advance_cons (h : At source before (c :: rest) r) :
    ∃ q, r.advance = (some c, q) ∧ At source (before ++ [c]) rest q := by
  obtain ⟨source', ⟨offset, feed⟩, buffered, position⟩ := r
  have hholds := h.holds
  have happend : source.toList = before ++ [c] ++ rest := by
    rw [h.append_eq, List.append_assoc, List.singleton_append]
  have hposition : position + c.utf8Size = byteLength (before ++ [c]) := by
    rw [byteLength_append, ← h.position_eq, byteLength_cons, byteLength_nil, Nat.add_zero]
  rcases buffered with _ | _ | ⟨start, d⟩
  · obtain ⟨rfl, rfl⟩ := Cursor.mk.inj hholds
    exact ⟨_, rfl, h.source_eq, happend, hposition, rfl⟩
  · cases hholds.1
  · obtain ⟨hstart, hcons, hoffset⟩ := hholds
    obtain ⟨rfl, rfl⟩ := List.cons.inj hcons
    subst hstart
    exact ⟨_, rfl, h.source_eq, happend, hposition, congrArg (Cursor.mk · rest) hoffset⟩

theorem matchChar (h : At source before rest r) (expected : Char) :
    rest.head? = some expected ∧
        (∃ q, r.matchChar expected = (true, q) ∧ At source (before ++ [expected]) rest.tail q) ∨
      rest.head? ≠ some expected ∧
        ∃ q, r.matchChar expected = (false, q) ∧ At source before rest q := by
  obtain ⟨q, hpeek, hq⟩ := h.peek
  cases rest with
  | nil => exact .inr ⟨nofun, q, by rw [Reader.matchChar, hpeek]; rfl, hq⟩
  | cons c rest =>
    by_cases hc : c = expected
    · subst hc
      obtain ⟨q', hadvance, hq'⟩ := hq.advance_cons
      refine .inl ⟨rfl, q', ?_, hq'⟩
      rw [Reader.matchChar, hpeek, List.head?_cons]
      simp [hadvance]
    · refine .inr ⟨by simpa using hc, q, ?_, hq⟩
      rw [Reader.matchChar, hpeek, List.head?_cons]
      simp [hc]

/-! ## Runs of characters -/

theorem advanceWhile (p : Char → Bool) (h : At source before rest r) :
    At source (before ++ rest.takeWhile p) (rest.dropWhile p) (r.advanceWhile p) := by
  induction rest generalizing before r with
  | nil =>
    obtain ⟨q, hpeek, hq⟩ := h.peek
    rwa [advanceWhile_of_none hpeek, List.takeWhile_nil, List.append_nil]
  | cons c rest ih =>
    obtain ⟨q, hpeek, hq⟩ := h.peek
    obtain ⟨q', hadvance, hq'⟩ := hq.advance_cons
    rw [advanceWhile_of_some hpeek]
    by_cases hc : p c = true
    · have hrest := ih hq'
      rw [List.append_assoc, List.singleton_append] at hrest
      rwa [if_pos hc, hadvance, List.takeWhile_cons_of_pos hc, List.dropWhile_cons_of_pos hc]
    · rwa [if_neg hc, List.takeWhile_cons_of_neg hc, List.dropWhile_cons_of_neg hc,
        List.append_nil]

/-- What was taken since `before` is the text between. -/
theorem taken? (h : At source (before ++ text) rest r) :
    r.taken? (byteLength before) = some (String.ofList text) := by
  rw [Reader.taken?, h.source_eq, h.position_eq]
  exact Span.textIn?_append before text rest h.append_eq

theorem takeBody (h : At source before rest r) :
    let body := rest.takeWhile (· != '\"')
    let after := rest.dropWhile (· != '\"')
    ∃ q, r.takeBody r.position = (after.head?.isSome, byteLength (before ++ body), q) ∧
      At source (before ++ body ++ after.take 1) after.tail q := by
  induction rest generalizing before r with
  | nil =>
    obtain ⟨q, hadvance, hq⟩ := h.advance_nil
    refine ⟨q, ?_, by simpa using hq⟩
    rw [takeBody_of_none hadvance, h.position_eq, List.takeWhile_nil, List.append_nil]
    rfl
  | cons c rest ih =>
    obtain ⟨q, hadvance, hq⟩ := h.advance_cons
    rw [takeBody_of_some hadvance]
    by_cases hc : c = '\"'
    · subst hc
      exact ⟨q, by simp [h.position_eq], by simpa using hq⟩
    · obtain ⟨q', hbody, hq'⟩ := ih hq
      refine ⟨q', ?_, by simpa [hc] using hq'⟩
      rw [if_neg (by simpa using hc), hbody]
      simp [hc]

/-! ## One token -/

/-- The reader answers the token of the lexeme, which stands after `before`, and goes past it. -/
def Gives (source : String) (before : List Char) (answer : Option (Token × Reader))
    (scanned : Lexeme × List Char) : Prop :=
  ∃ q, answer = some (tokenAt (byteLength before) scanned.1, q) ∧
    At source (before ++ scanned.1.text) scanned.2 q

theorem emit {kind : TokenKind} (hkind : ∀ b, kind ≠ .string b)
    (h : At source (before ++ text) rest r) :
    Gives source before (r.emit kind (byteLength before)) (⟨kind, text⟩, rest) := by
  have htext : Lexeme.text ⟨kind, text⟩ = text := TokenKind.enclose_of_not_string hkind text
  refine ⟨r, ?_, by rwa [htext]⟩
  rw [Reader.emit, h.taken?, h.position_eq, byteLength_append, tokenAt, htext]
  rfl

theorem scanString (h : At source (before ++ ['\"']) rest r) :
    Gives source before (r.scanString (byteLength before)) (Lexeme.scanString rest) := by
  obtain ⟨q, hbody, hq⟩ := h.takeBody
  have hcut := Span.textIn?_append (before ++ ['\"']) (rest.takeWhile (· != '\"'))
    (rest.dropWhile (· != '\"'))
    (by rw [h.append_eq, List.append_assoc _ (rest.takeWhile _), List.takeWhile_append_dropWhile])
  rw [Reader.scanString, hbody]
  dsimp only
  rw [hq.source_eq, h.position_eq, hcut]
  unfold Lexeme.scanString
  cases hafter : rest.dropWhile (· != '\"') with
  | nil =>
    rw [hafter] at hq
    refine ⟨q, ?_, by simpa [Lexeme.text, TokenKind.enclose] using hq⟩
    simp [tokenAt, Lexeme.text, TokenKind.enclose, hq.position_eq]
  | cons d after =>
    obtain rfl : d = '\"' := by
      have hstop := stops_dropWhile (· != '\"') rest d (by rw [hafter]; rfl)
      simpa using hstop
    rw [hafter] at hq
    refine ⟨q, ?_, by simpa [Lexeme.text, TokenKind.enclose] using hq⟩
    simp [tokenAt, Lexeme.text, TokenKind.enclose, hq.position_eq]

theorem scanSymbol {kind : TokenKind} (hkind : ∀ b, kind ≠ .string b)
    (h : At source (before ++ [c]) rest r) :
    Gives source before (r.scanSymbol kind c (byteLength before))
      (Lexeme.scanSymbol kind c rest) := by
  unfold Reader.scanSymbol
  cases hequals : Operator.beforeEquals? c with
  | none =>
    rw [Lexeme.scanSymbol_of_stops (by simp [hequals])]
    exact h.emit hkind
  | some o =>
    rcases h.matchChar '=' with ⟨hhead, q, hmatch, hq⟩ | ⟨hhead, q, hmatch, hq⟩
    · obtain ⟨cs, rfl⟩ := List.head?_eq_some_iff.mp hhead
      have htwo : Lexeme.scanSymbol kind c ('=' :: cs) = (⟨.operator o, [c, '=']⟩, cs) := by
        simp [Lexeme.scanSymbol, hequals]
      rw [List.append_assoc] at hq
      rw [hmatch, htwo]
      exact hq.emit (by simp)
    · rw [hmatch, Lexeme.scanSymbol_of_stops fun _ => hhead]
      exact hq.emit hkind

theorem scanNumber (hc : isNumberChar c = true) (h : At source (before ++ [c]) rest r) :
    Gives source before (r.scanNumber (byteLength before)) (Lexeme.scanNumber (c :: rest)) := by
  have hrun := h.advanceWhile isNumberChar
  rw [List.append_assoc, List.singleton_append, ← List.takeWhile_cons_of_pos hc,
    ← List.dropWhile_cons_of_pos hc] at hrun
  rw [Reader.scanNumber, hrun.taken?, Option.bind_eq_bind, Option.bind_some, String.toList_ofList]
  exact hrun.emit (TokenKind.ofNumber_ne_string _)

theorem scanWord (hc : isWordChar c = true) (h : At source (before ++ [c]) rest r) :
    Gives source before (r.scanWord (byteLength before)) (Lexeme.scanWord (c :: rest)) := by
  have hrun := h.advanceWhile isWordChar
  rw [List.append_assoc, List.singleton_append, ← List.takeWhile_cons_of_pos hc,
    ← List.dropWhile_cons_of_pos hc] at hrun
  rw [Reader.scanWord, hrun.taken?, Option.bind_eq_bind, Option.bind_some]
  exact hrun.emit (TokenKind.ofWord_ne_string _)

theorem scan (h : At source (before ++ [c]) rest r) :
    Gives source before (r.scan c (byteLength before)) (Lexeme.scan c rest) := by
  unfold Reader.scan Lexeme.scan
  by_cases hquote : (c == '\"') = true
  · obtain rfl := beq_iff_eq.mp hquote
    exact h.scanString
  rw [if_neg hquote, if_neg hquote]
  cases hsymbol : TokenKind.ofSymbol? c with
  | some kind =>
    refine h.scanSymbol fun b => ?_
    rcases TokenKind.ofSymbol?_eq_some hsymbol with ⟨o, rfl⟩ | ⟨p, rfl⟩ <;> simp
  | none =>
    dsimp only
    split
    next hnumber => exact h.scanNumber hnumber
    next =>
      split
      next hword => exact h.scanWord hword
      next => exact h.emit (by simp)

/-- Blanks are passed over, and then it is the first character that decides. -/
theorem nextToken (h : At source before rest r) :
    ∃ q before', r.nextToken = some ((next ⟨byteLength before, rest⟩).1, q) ∧
      (next ⟨byteLength before, rest⟩).2.offset = byteLength before' ∧
      At source before' (next ⟨byteLength before, rest⟩).2.rest q := by
  have hgap := h.advanceWhile isBlank
  rw [next, skipBlanks, takeToken, Reader.nextToken]
  dsimp only
  rw [← byteLength_append, hgap.position_eq]
  cases hdrop : rest.dropWhile isBlank with
  | nil =>
    rw [hdrop] at hgap
    obtain ⟨q, hadvance, hq⟩ := hgap.advance_nil
    exact ⟨q, _, by rw [hadvance], rfl, hq⟩
  | cons c cs =>
    rw [hdrop] at hgap
    obtain ⟨q, hadvance, hq⟩ := hgap.advance_cons
    obtain ⟨q', hscan, hq'⟩ := hq.scan
    refine ⟨q', _, ?_, ?_, hq'⟩
    · rw [hadvance]
      exact hscan
    · exact (byteLength_append _ _).symm

end At

/-- The reader is at the place of the cursor in the source. -/
def Reads (source : String) (p : Cursor) (r : Reader) : Prop :=
  ∃ before, p.offset = byteLength before ∧ At source before p.rest r

theorem Reads.start (source : String) : Reads source (.ofSource source) (ofSource source) :=
  ⟨[], rfl, .start source⟩

/-- A reader never fails, and takes the token that the cursor takes. -/
theorem Reads.nextToken {source : String} {p : Cursor} {r : Reader} (h : Reads source p r) :
    ∃ q, r.nextToken = some (p.next.1, q) ∧ Reads source p.next.2 q := by
  obtain ⟨offset, rest⟩ := p
  obtain ⟨before, rfl, hat⟩ := h
  obtain ⟨q, before', htoken, hoffset, hq⟩ := hat.nextToken
  exact ⟨q, htoken, before', hoffset, hq⟩

end Reader

end ScriptFrontend
