import ScriptFrontend.Span

/-!
# Slices of a source

`Span.textIn?` takes the text of a span and refuses every span that does not fit the source: ends
outside it, ends inside a character, inverted ends. `textIn?_eq_some_iff` says what it takes in
terms of the characters before and after; the rest follows from that a list of characters has one
cut at a byte offset (`append_inj_of_byteLength`).
-/

namespace ScriptFrontend

namespace Text

/-- The character that begins at the byte offset. -/
def charAt? (source : String) (offset : Nat) : Option Char :=
  (splitBytes? offset source.toList).bind fun (_, after) => after.head?

theorem byteLength_eq_zero_iff {cs : List Char} : byteLength cs = 0 ↔ cs = [] := by
  cases cs with
  | nil => simp
  | cons c cs =>
    have := c.utf8Size_pos
    simp only [byteLength_cons, reduceCtorEq, iff_false]
    omega

theorem byteLength_pos_iff {cs : List Char} : 0 < byteLength cs ↔ cs ≠ [] := by
  rw [Nat.pos_iff_ne_zero, ne_eq, byteLength_eq_zero_iff]

/-- Every number of bytes is the length of some text. -/
theorem exists_byteLength (n : Nat) : ∃ cs, byteLength cs = n := by
  induction n with
  | zero => exact ⟨[], rfl⟩
  | succ n ih =>
    obtain ⟨cs, rfl⟩ := ih
    have hblank : ' '.utf8Size = 1 := rfl
    exact ⟨' ' :: cs, by rw [byteLength_cons, hblank, Nat.add_comm]⟩

/-- A text has at most one cut at a byte offset. -/
theorem append_inj_of_byteLength {as bs cs ds : List Char} (h : as ++ bs = cs ++ ds)
    (hlen : byteLength as = byteLength cs) : as = cs ∧ bs = ds := by
  have has := splitBytes?_append as bs
  rw [h, hlen, splitBytes?_append] at has
  simpa [eq_comm] using has

/-- A character in a concatenation stands in one of the two parts. -/
theorem append_eq_append_cons {as bs us vs : List Char} {c : Char}
    (h : as ++ bs = us ++ c :: vs) :
    (∃ ws, as = us ++ c :: ws) ∨ ∃ ws, us = as ++ ws ∧ bs = ws ++ c :: vs := by
  rcases List.append_eq_append_iff.mp h with ⟨ws, rfl, hws⟩ | ⟨ws, rfl, hws⟩
  · exact .inr ⟨ws, rfl, hws⟩
  · cases ws with
    | nil => exact .inr ⟨[], by simp, by simpa using hws.symm⟩
    | cons d ws =>
      obtain ⟨rfl, -⟩ := List.cons.inj hws
      exact .inl ⟨ws, rfl⟩

theorem charAt?_append {source : String} {before after : List Char}
    (h : source.toList = before ++ after) : charAt? source (byteLength before) = after.head? := by
  rw [charAt?, h, splitBytes?_append]
  rfl

theorem isValid_byteLength {source : String} {before after : List Char}
    (h : source.toList = before ++ after) :
    String.Pos.Raw.IsValid source ⟨byteLength before⟩ := by
  rw [String.Pos.Raw.isValid_iff_exists_append]
  refine ⟨String.ofList before, String.ofList after, ?_, ?_⟩
  · rw [← String.ofList_append, ← h, String.ofList_toList]
  · rw [← utf8ByteSize_ofList]
    rfl

end Text

namespace Span

open Text

theorem textIn?_eq_some_iff {s : Span} {source text : String} :
    s.textIn? source = some text ↔
      ∃ before after, source.toList = before ++ text.toList ++ after ∧
        s = ⟨byteLength before, byteLength (before ++ text.toList)⟩ := by
  constructor
  · intro h
    unfold textIn? at h
    split at h
    next hle =>
      simp only [slice?, Option.bind_eq_bind, Option.bind_eq_some_iff, Option.pure_def,
        Option.some.injEq] at h
      obtain ⟨⟨before, rest⟩, hbefore, ⟨covered, after⟩, hcovered, rfl⟩ := h
      obtain ⟨hsource, hstart⟩ := eq_append_of_splitBytes? hbefore
      obtain ⟨hrest, hlen⟩ := eq_append_of_splitBytes? hcovered
      dsimp only at hrest ⊢
      refine ⟨before, after, ?_, ?_⟩
      · rw [hsource, hrest, String.toList_ofList, List.append_assoc]
      · rw [String.toList_ofList, byteLength_append, hstart, hlen, Nat.add_sub_cancel' hle]
    next => simp at h
  · rintro ⟨before, after, hsource, rfl⟩
    simp only [textIn?, byteLength_append]
    rw [if_pos (Nat.le_add_right _ _), slice?, hsource, List.append_assoc, splitBytes?_append]
    simp [splitBytes?_append]

/-- The part of a source between two known parts is the text of its span. -/
theorem textIn?_append {source : String} (before text after : List Char)
    (h : source.toList = before ++ text ++ after) :
    textIn? ⟨byteLength before, byteLength (before ++ text)⟩ source =
      some (String.ofList text) := by
  rw [textIn?_eq_some_iff]
  exact ⟨before, after, by simpa using h, by simp⟩

/-- A span that starts where a known part ends takes its text from the head of the rest. -/
theorem textIn?_eq_some {s : Span} {source text : String} {before rest : List Char}
    (h : s.textIn? source = some text) (hsource : source.toList = before ++ rest)
    (hstart : s.start = byteLength before) :
    s.stop = byteLength (before ++ text.toList) ∧ ∃ after, rest = text.toList ++ after := by
  obtain ⟨before', after, hsource', rfl⟩ := textIn?_eq_some_iff.mp h
  rw [hsource, List.append_assoc] at hsource'
  obtain ⟨rfl, rfl⟩ := append_inj_of_byteLength hsource' hstart.symm
  exact ⟨rfl, after, rfl⟩

end Span

end ScriptFrontend
