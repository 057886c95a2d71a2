import Mathlib.Data.List.Forall2
import ScriptFrontend.Proofs.Diagnostic.FaultList
import ScriptFrontend.Tree.Leaf

/-!
# One diagnostic for each token at fault

`Token.Faulty` says without the checker what is wrong with a token, by its kind and, for a float, by
what the conversion to a leaf answers. `Describes t d` says which diagnostic belongs to the token.
`check` pairs the faulty tokens of any list, scanned or not, with their diagnostics
(`check_eq_iff_describes`). Where the offsets of a token are words of 64 bits, the place is worked
out in such words and no sum leaves their range (`WordPlace`).
-/

namespace ScriptFrontend

namespace Leaf

theorem floatOfToken_eq_invalidFloat_iff {t : Token} {literal : String}
    {fault : Number.FloatFault} :
    floatOfToken t = .error (.invalidFloat literal fault) ↔
      t.kind = .float ∧ t.literal = literal ∧ Number.readBinary64 t.literal = .error fault := by
  unfold floatOfToken
  split
  next hkind =>
    split
    next v hread => simp [hread]
    next fault' hread => simp [hkind, hread]
  next hkind => exact iff_of_false (by simp) fun h => hkind h.1

end Leaf

/-- Illegal, a string without its closing quote, or a float with a literal that is no number. -/
def Token.Faulty (t : Token) : Prop :=
  t.kind = .illegal ∨ t.kind = .string false ∨
    ∃ literal fault, Leaf.floatOfToken t = .error (.invalidFloat literal fault)

/-- The diagnostic names what is wrong with the token and has its literal, wherever it points. -/
inductive Concerns (t : Token) : Diagnostic → Prop where
  | illegalCharacter {place : Extent} (hkind : t.kind = .illegal) :
      Concerns t (.illegalCharacter t.literal place)
  | unterminatedString {place : Extent} (hkind : t.kind = .string false) :
      Concerns t (.unterminatedString place)
  | malformedNumber {place : Extent} {fault : Number.FloatFault}
      (hfloat : Leaf.floatOfToken t = .error (.invalidFloat t.literal fault)) :
      Concerns t (.malformedNumber t.literal place)

/-- The length of a range of words. An inverted range is empty. -/
def wordLength (start stop : UInt64) : UInt64 := if start < stop then stop - start else 0

/-- The place of the diagnostic and its span are those of the range, worked out in words. -/
structure WordPlace (start stop : UInt64) (d : Diagnostic) : Prop where
  place_eq : d.place = ⟨start.toNat, (wordLength start stop).toNat⟩
  no_overflow : start.toNat + (wordLength start stop).toNat < UInt64.size
  span_eq : d.span = ⟨start.toNat, (start + wordLength start stop).toNat⟩

/-- The diagnostic is the one that belongs to the token. -/
structure Describes (t : Token) (d : Diagnostic) : Prop where
  concerns : Concerns t d
  span_eq : d.span = ⟨t.span.start, max t.span.start t.span.stop⟩
  length_eq : d.span.length = t.span.length
  span_eq_iff : d.span = t.span ↔ t.span.start ≤ t.span.stop
  word_place : ∀ start stop : UInt64, t.span = ⟨start.toNat, stop.toNat⟩ → WordPlace start stop d

/-! ## Words -/

theorem toNat_wordLength (start stop : UInt64) :
    (wordLength start stop).toNat = stop.toNat - start.toNat := by
  unfold wordLength
  split
  next h => exact UInt64.toNat_sub_of_le _ _ (UInt64.le_of_lt h)
  next h =>
    have hle : stop.toNat ≤ start.toNat := UInt64.le_iff_toNat_le.mp (UInt64.not_lt.mp h)
    rw [UInt64.toNat_zero]
    omega

/-- The sum is the larger of the two ends, so it fits in a word. -/
theorem add_wordLength (start stop : UInt64) :
    start.toNat + (wordLength start stop).toNat = max start.toNat stop.toNat := by
  rw [toNat_wordLength]
  omega

theorem wordPlace_of_place {start stop : UInt64} {d : Diagnostic}
    (h : d.place = (Span.mk start.toNat stop.toNat).extent) : WordPlace start stop d := by
  have hlt : start.toNat + (wordLength start stop).toNat < UInt64.size := by
    rw [add_wordLength]
    exact max_lt start.toNat_lt stop.toNat_lt
  refine ⟨?_, hlt, ?_⟩
  · rw [h, toNat_wordLength]
    rfl
  · rw [Diagnostic.span, h, Span.span_extent, UInt64.toNat_add, Nat.mod_eq_of_lt hlt,
      add_wordLength]

/-! ## One token -/

theorem Extent.span_inj {p q : Extent} : p.span = q.span ↔ p = q := by
  obtain ⟨offset, length⟩ := p
  obtain ⟨offset', length'⟩ := q
  simp only [span, Span.mk.injEq, mk.injEq]
  omega

theorem describes_iff {t : Token} {d : Diagnostic} :
    Describes t d ↔ Concerns t d ∧ d.place = t.span.extent := by
  constructor
  · intro h
    exact ⟨h.concerns, Extent.span_inj.mp (h.span_eq.trans t.span.span_extent.symm)⟩
  · rintro ⟨hconcerns, hplace⟩
    have hspan : d.span = ⟨t.span.start, max t.span.start t.span.stop⟩ := by
      rw [Diagnostic.span, hplace, Span.span_extent]
    refine ⟨hconcerns, hspan, ?_, ?_, fun start stop h => wordPlace_of_place (h ▸ hplace)⟩
    · rw [Diagnostic.span, Extent.length_span, hplace]
      rfl
    · rw [hspan]
      generalize t.span = s
      obtain ⟨start, stop⟩ := s
      simp only [Span.mk.injEq, true_and]
      omega

namespace Diagnostic

theorem ofToken?_eq_some_iff_describes {t : Token} {d : Diagnostic} :
    ofToken? t = some d ↔ Describes t d := by
  rw [ofToken?_eq_some_iff, describes_iff]
  constructor
  · rintro (⟨hkind, rfl⟩ | ⟨hkind, rfl⟩ | ⟨hkind, ⟨fault, hread⟩, rfl⟩)
    · exact ⟨.illegalCharacter hkind, rfl⟩
    · exact ⟨.unterminatedString hkind, rfl⟩
    · exact ⟨.malformedNumber (Leaf.floatOfToken_eq_invalidFloat_iff.mpr ⟨hkind, rfl, hread⟩), rfl⟩
  · rintro ⟨hkind | hkind | hfloat, rfl⟩
    · exact .inl ⟨hkind, rfl⟩
    · exact .inr (.inl ⟨hkind, rfl⟩)
    · obtain ⟨hkind, -, hread⟩ := Leaf.floatOfToken_eq_invalidFloat_iff.mp hfloat
      exact .inr (.inr ⟨hkind, ⟨_, hread⟩, rfl⟩)

theorem isSome_ofToken?_iff {t : Token} : (ofToken? t).isSome = true ↔ t.Faulty := by
  simp only [Option.isSome_iff_exists, ofToken?_eq_some_iff, exists_or, exists_and_left,
    exists_eq, and_true, Token.Faulty, Leaf.floatOfToken_eq_invalidFloat_iff, exists_eq_left']

end Diagnostic

instance (t : Token) : Decidable t.Faulty :=
  decidable_of_iff _ Diagnostic.isSome_ofToken?_iff

/-! ## Any list of tokens -/

theorem check_eq_iff_describes (tokens : List Token) (diagnostics : List Diagnostic) :
    Diagnostic.check tokens = diagnostics ↔
      List.Forall₂ Describes (tokens.filter fun t => t.Faulty) diagnostics := by
  induction tokens generalizing diagnostics with
  | nil => simp [Diagnostic.check, eq_comm]
  | cons t tokens ih =>
    by_cases hfaulty : t.Faulty
    · obtain ⟨d, hd⟩ := Option.isSome_iff_exists.mp (Diagnostic.isSome_ofToken?_iff.mpr hfaulty)
      rw [Diagnostic.check, List.filterMap_cons_some hd, List.filter_cons_of_pos (by simpa)]
      constructor
      · rintro rfl
        exact .cons (Diagnostic.ofToken?_eq_some_iff_describes.mp hd) ((ih _).mp rfl)
      · rintro (_ | ⟨hdescribes, hrest⟩)
        -- the token determines its diagnostic
        rw [Diagnostic.ofToken?_eq_some_iff_describes.mpr hdescribes] at hd
        rw [← Option.some.inj hd, ← (ih _).mpr hrest, Diagnostic.check]
    · have hnone : Diagnostic.ofToken? t = none :=
        Option.not_isSome_iff_eq_none.mp (mt Diagnostic.isSome_ofToken?_iff.mp hfaulty)
      rw [Diagnostic.check, List.filterMap_cons_none hnone,
        List.filter_cons_of_neg (by simpa), ← ih, Diagnostic.check]

/-- An inverted span at the top of the range becomes the empty one there. -/
example : (Diagnostic.check [⟨.illegal, "", ⟨18446744073709551615, 0⟩⟩]).map Diagnostic.span =
    [⟨18446744073709551615, 18446744073709551615⟩] := by decide

end ScriptFrontend
