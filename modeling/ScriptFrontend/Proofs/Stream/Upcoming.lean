import ScriptFrontend.Proofs.Tokenize.Reading
import ScriptFrontend.Token.Stream

/-!
# What a stream still has

`Cursor.after p n` is the place that taking `n` tokens leads to, and `Cursor.endless` are the tokens
that can be taken, with the end token for ever at the end. The iterator of a stream still has
`TokenStream.upcoming`, and each of its requests takes some tokens from the front of that list
(`next?_eq`, `nth?_eq`, `collect_eq`).
-/

namespace ScriptFrontend

open Text

namespace Cursor

/-- The place after `n` more tokens. -/
def after (p : Cursor) : Nat → Cursor
  | 0 => p
  | n + 1 => p.next.2.after n

/-- The byte offset at which the text ends. -/
def stop (p : Cursor) : Nat := p.offset + byteLength p.rest

/-- The `i`-th token from here, where the end token never runs out. -/
def endless (p : Cursor) (i : Nat) : Token := p.tokens.getD i (.eof p.stop)

theorem after_after (p : Cursor) (m n : Nat) : (p.after m).after n = p.after (m + n) := by
  induction m generalizing p with
  | zero => rw [Nat.zero_add, after]
  | succ m ih => rw [Nat.add_right_comm, after, after, ih]

/-- Either the end is next and remains so, or the first token is followed by the others. -/
theorem next_cases (p : Cursor) :
    p.next.1 = .eof p.stop ∧ p.tokens = [.eof p.stop] ∧ p.next.2.tokens = [.eof p.stop] ∨
      p.next.1.isEof = false ∧ p.tokens = p.next.1 :: p.next.2.tokens := by
  obtain ⟨offset, rest⟩ := p
  rcases blank_or_exists_fits rest with hgap | ⟨gap, l, rest, hgap, hfits, rfl⟩
  · left
    rw [next_of_blank hgap, tokens_of_blank hgap]
    exact ⟨rfl, rfl, tokens_nil _⟩
  · right
    rw [next_of_fits hgap hfits, tokens_of_fits hgap hfits]
    exact ⟨isEof_tokenAt hfits.kind_ne_eof, rfl⟩

theorem stop_next (p : Cursor) : p.next.2.stop = p.stop := by
  obtain ⟨offset, rest⟩ := p
  rcases blank_or_exists_fits rest with hgap | ⟨gap, l, rest, hgap, hfits, rfl⟩
  · rw [next_of_blank hgap]
    rfl
  · rw [next_of_fits hgap hfits]
    simp only [stop, byteLength_append, Nat.add_assoc]

theorem stop_after (p : Cursor) (n : Nat) : (p.after n).stop = p.stop := by
  induction n generalizing p with
  | zero => rfl
  | succ n ih => rw [after, ih, stop_next]

theorem exists_tokens_eq (p : Cursor) :
    ∃ body, p.tokens = body ++ [.eof p.stop] ∧ ∀ t ∈ body, t.isEof = false := by
  obtain ⟨offset, rest⟩ := p
  obtain ⟨before, rfl⟩ := exists_byteLength offset
  have hbody := (reading_tokens before rest).exists_body
  rwa [byteLength_append] at hbody

theorem endless_zero (p : Cursor) : p.endless 0 = p.next.1 := by
  rcases p.next_cases with ⟨hnext, htokens, -⟩ | ⟨-, htokens⟩
  · rw [endless, htokens, hnext]
    rfl
  · rw [endless, htokens]
    rfl

theorem endless_succ (p : Cursor) (i : Nat) : p.endless (i + 1) = p.next.2.endless i := by
  rw [endless, endless, stop_next]
  rcases p.next_cases with ⟨-, htokens, hlater⟩ | ⟨-, htokens⟩
  · rw [htokens, hlater]
    cases i <;> rfl
  · rw [htokens, List.getD_cons_succ]

theorem endless_after (p : Cursor) (k i : Nat) : (p.after k).endless i = p.endless (k + i) := by
  induction k generalizing p with
  | zero => rw [Nat.zero_add, after]
  | succ k ih => rw [after, ih, Nat.add_right_comm, endless_succ]

/-- Taking tokens one after another gives the endless ones. -/
theorem next_after (p : Cursor) (k : Nat) : (p.after k).next.1 = p.endless k := by
  rw [← endless_zero, endless_after, Nat.add_zero]

theorem length_tokens_after (p : Cursor) (k : Nat) :
    (p.after k).tokens.length = max 1 (p.tokens.length - k) := by
  induction k generalizing p with
  | zero =>
    obtain ⟨body, htokens, -⟩ := p.exists_tokens_eq
    simp [after, htokens]
  | succ k ih =>
    rw [after, ih]
    rcases p.next_cases with ⟨-, htokens, hlater⟩ | ⟨-, htokens⟩
    · rw [htokens, hlater, List.length_singleton]
      omega
    · rw [htokens, List.length_cons, Nat.add_sub_add_right]

theorem tokens_eq_map_endless (p : Cursor) :
    p.tokens = (List.range p.tokens.length).map p.endless := by
  refine List.ext_getElem (by simp) fun i hi _ => ?_
  simp [endless, hi]

end Cursor

namespace TokenStream

/-- The tokens that the iterator still yields. -/
def upcoming (s : TokenStream) : List Token := if s.finished then [] else s.cursor.tokens

/-- The stream when its iterator has passed the next `n` tokens, or all if there are fewer. -/
def advance (s : TokenStream) (n : Nat) : TokenStream :=
  let taken := s.upcoming.take n
  ⟨s.cursor.after taken.length, s.finished || taken.any Token.isEof⟩

theorem upcoming_of_finished {s : TokenStream} (h : s.finished = true) : s.upcoming = [] := by
  rw [upcoming, if_pos h]

theorem advance_of_finished (s : TokenStream) (h : s.finished = true) (n : Nat) :
    s.advance n = s := by
  rw [advance, upcoming_of_finished h, List.take_nil, h]
  obtain ⟨p, finished⟩ := s
  rw [show finished = true from h]
  rfl

theorem next?_eq (s : TokenStream) : s.next? = (s.upcoming.head?, s.advance 1) := by
  obtain ⟨p, finished⟩ := s
  cases finished with
  | true => rfl
  | false =>
    rcases p.next_cases with ⟨hnext, htokens, -⟩ | ⟨heof, htokens⟩
    · simp [next?, pull, upcoming, advance, htokens, Cursor.after, hnext]
    · simp [next?, pull, upcoming, advance, htokens, Cursor.after]

theorem upcoming_advance_one (s : TokenStream) : (s.advance 1).upcoming = s.upcoming.tail := by
  obtain ⟨p, finished⟩ := s
  cases finished with
  | true => rfl
  | false =>
    rcases p.next_cases with ⟨hnext, htokens, -⟩ | ⟨heof, htokens⟩
    · simp [upcoming, advance, htokens, Token.eof, Token.isEof, TokenKind.isEof]
    · simp [upcoming, advance, htokens, Cursor.after, heof]

theorem advance_one_advance (s : TokenStream) (n : Nat) :
    (s.advance 1).advance n = s.advance (n + 1) := by
  have hupcoming := s.upcoming_advance_one
  rw [advance, hupcoming]
  unfold advance
  cases s.upcoming with
  | nil => simp [Cursor.after]
  | cons t ts => simp [Cursor.after_after, Nat.add_comm, Bool.or_assoc]

theorem nth?_eq (s : TokenStream) (n : Nat) : s.nth? n = (s.upcoming[n]?, s.advance (n + 1)) := by
  induction n generalizing s with
  | zero => rw [nth?, next?_eq, List.head?_eq_getElem?]
  | succ n ih =>
    rw [nth?, next?_eq]
    cases hupcoming : s.upcoming with
    | nil => simp [advance, hupcoming]
    | cons t ts => simp [ih, upcoming_advance_one, advance_one_advance, hupcoming]

theorem collect_eq (s : TokenStream) :
    s.collect = (s.upcoming, s.advance s.upcoming.length) := by
  induction hl : s.upcoming generalizing s with
  | nil =>
    rw [collect]
    split
    next r h =>
      rw [next?_eq, hl] at h
      obtain ⟨-, rfl⟩ := Prod.mk.inj h
      simp [advance, hl]
    next t r h =>
      rw [next?_eq, hl] at h
      cases h
  | cons t ts ih =>
    rw [collect]
    split
    next r h =>
      rw [next?_eq, hl] at h
      cases h
    next u r h =>
      rw [next?_eq, hl] at h
      obtain ⟨hu, rfl⟩ := Prod.mk.inj h
      have hrest : (s.advance 1).upcoming = ts := by rw [upcoming_advance_one, hl, List.tail_cons]
      rw [ih (s.advance 1) hrest, advance_one_advance, List.length_cons, Option.some.inj hu]

end TokenStream

end ScriptFrontend
