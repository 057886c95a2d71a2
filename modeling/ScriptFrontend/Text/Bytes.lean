/-!
# Byte lengths

Positions in source text are counted in bytes of its UTF-8 form. `byteLength` measures a list of
characters, and `splitBytes?` cuts one after a number of bytes, which succeeds exactly when a
character ends there.
-/

namespace ScriptFrontend.Text

/-- The number of bytes that the characters take in UTF-8. -/
def byteLength : List Char → Nat
  | [] => 0
  | c :: cs => c.utf8Size + byteLength cs

@[simp] theorem byteLength_nil : byteLength [] = 0 := rfl

@[simp] theorem byteLength_cons (c : Char) (cs : List Char) :
    byteLength (c :: cs) = c.utf8Size + byteLength cs := rfl

@[simp] theorem byteLength_append (as bs : List Char) :
    byteLength (as ++ bs) = byteLength as + byteLength bs := by
  induction as with
  | nil => simp
  | cons c cs ih => simp [ih, Nat.add_assoc]

theorem utf8ByteSize_ofList (cs : List Char) :
    (String.ofList cs).utf8ByteSize = byteLength cs := by
  induction cs with
  | nil => simp
  | cons c cs ih => simp [String.ofList_cons, ih]

theorem byteLength_toList (s : String) : byteLength s.toList = s.utf8ByteSize := by
  rw [← utf8ByteSize_ofList, String.ofList_toList]

/-- Cuts the text after its first `n` bytes, if a character ends there. -/
def splitBytes? : Nat → List Char → Option (List Char × List Char)
  | 0, cs => some ([], cs)
  | _ + 1, [] => none
  | n + 1, c :: cs =>
    if c.utf8Size ≤ n + 1 then
      (splitBytes? (n + 1 - c.utf8Size) cs).map fun (front, back) => (c :: front, back)
    else
      none

theorem splitBytes?_append (as bs : List Char) :
    splitBytes? (byteLength as) (as ++ bs) = some (as, bs) := by
  induction as with
  | nil => simp [splitBytes?]
  | cons c cs ih =>
    obtain ⟨k, hk⟩ : ∃ k, c.utf8Size + byteLength cs = k + 1 :=
      ⟨c.utf8Size + byteLength cs - 1, by have := c.utf8Size_pos; omega⟩
    rw [byteLength_cons, hk, List.cons_append, splitBytes?, if_pos (by omega), ← hk,
      Nat.add_sub_cancel_left, ih]
    rfl

theorem eq_append_of_splitBytes? {n : Nat} {cs front back : List Char}
    (h : splitBytes? n cs = some (front, back)) : cs = front ++ back ∧ byteLength front = n := by
  fun_induction splitBytes? n cs generalizing front back with
  | case1 cs => simp_all
  | case2 => simp at h
  | case3 n c cs hc ih =>
    obtain ⟨⟨f, b⟩, hs, heq⟩ := Option.map_eq_some_iff.1 h
    obtain ⟨rfl, rfl⟩ := Prod.mk.inj heq
    have ⟨hcs, hn⟩ := ih hs
    exact ⟨by rw [hcs, List.cons_append], by rw [byteLength_cons]; omega⟩
  | case4 => simp at h

/-- The bytes from `start` up to `stop`, if both ends fall between characters of the text. -/
def slice? (source : String) (start stop : Nat) : Option String := do
  let (_, after) ← splitBytes? start source.toList
  let (covered, _) ← splitBytes? (stop - start) after
  return String.ofList covered

end ScriptFrontend.Text
