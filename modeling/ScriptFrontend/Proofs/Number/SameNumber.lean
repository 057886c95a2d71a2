import ScriptFrontend.Proofs.Number.Run

/-!
# Doubles as numbers

Two doubles are the same number when neither is a NaN and, the sign of a zero apart, they have one
pattern (`Binary64.equal_iff`). A decimal number never rounds to a NaN, since rounding stops at
infinity. So what is read from a run of digits and dots is a number, however long the run is
(`isNaN_readBinary64`).
-/

namespace ScriptFrontend.Number

namespace Binary64

/-- The same number, where a zero has no sign. -/
def unsignZero (x : Binary64) : Binary64 := if x.magnitude = 0 then ⟨0⟩ else x

/-! ## Patterns -/

/-- Sign and magnitude make up the pattern. -/
theorem toNat_bits (x : Binary64) :
    x.bits.toNat = (if x.isNegative then signBit else 0) + x.magnitude := by
  have hlt := x.bits.toNat_lt
  unfold isNegative magnitude signBit
  by_cases h : 0x8000000000000000 ≤ x.bits.toNat
  · rw [decide_eq_true h, if_pos rfl]
    omega
  · rw [decide_eq_false h, if_neg Bool.false_ne_true]
    omega

theorem eq_of_sign_of_magnitude {x y : Binary64} (hsign : x.isNegative = y.isNegative)
    (hmagnitude : x.magnitude = y.magnitude) : x = y := by
  have hbits : x.bits.toNat = y.bits.toNat := by
    rw [toNat_bits, toNat_bits, hsign, hmagnitude]
  exact congrArg mk (UInt64.toNat_inj.mp hbits)

theorem unsignZero_of_zero {x : Binary64} (h : x.magnitude = 0) : x.unsignZero = ⟨0⟩ := if_pos h

theorem unsignZero_of_ne_zero {x : Binary64} (h : x.magnitude ≠ 0) : x.unsignZero = x := if_neg h

theorem magnitude_unsignZero (x : Binary64) : x.unsignZero.magnitude = x.magnitude := by
  unfold unsignZero
  split
  next h => rw [h]; rfl
  next => rfl

/-- Keys agree when the patterns do, or when both are zeros. -/
theorem key_eq_iff {x y : Binary64} : x.key = y.key ↔ x.unsignZero = y.unsignZero := by
  constructor
  · intro h
    have hmagnitude : x.magnitude = y.magnitude := by
      simp only [key] at h
      split at h <;> split at h <;> omega
    by_cases hzero : x.magnitude = 0
    · rw [unsignZero_of_zero hzero, unsignZero_of_zero (hmagnitude ▸ hzero)]
    · have hsign : x.isNegative = y.isNegative := by
        cases hx : x.isNegative <;> cases hy : y.isNegative <;> simp [key, hx, hy] at h ⊢ <;> omega
      rw [eq_of_sign_of_magnitude hsign hmagnitude]
  · intro h
    have hmagnitude : x.magnitude = y.magnitude := by
      rw [← x.magnitude_unsignZero, h, y.magnitude_unsignZero]
    by_cases hzero : x.magnitude = 0
    · simp [key, hzero, ← hmagnitude]
    · rw [unsignZero_of_ne_zero hzero, unsignZero_of_ne_zero (hmagnitude ▸ hzero)] at h
      rw [h]

theorem equal_iff {x y : Binary64} :
    x.equal y = true ↔ x.isNaN = false ∧ y.isNaN = false ∧ x.unsignZero = y.unsignZero := by
  simp [equal, key_eq_iff, and_assoc]

/-- The two zeros are the same number. -/
example : (ofMagnitude true 0).equal (ofMagnitude false 0) = true := by decide

/-! ## Decimal numbers -/

theorem isNaN_ofMagnitude {m : Nat} (negative : Bool) (h : m ≤ infinityMagnitude) :
    (ofMagnitude negative m).isNaN = false := by
  have hlt : m < signBit := Nat.lt_of_le_of_lt h (by decide)
  rw [isNaN, magnitude_ofMagnitude negative hlt]
  simpa using h

/-- Rounding goes no further than infinity. -/
theorem decimalMagnitude_le (coefficient : Nat) (exponent : Int) :
    decimalMagnitude coefficient exponent ≤ infinityMagnitude := by
  unfold decimalMagnitude
  split
  · exact Nat.zero_le _
  · split
    · exact Nat.le_refl _
    · split
      · exact Nat.zero_le _
      · exact Nat.min_le_left _ _

theorem isNaN_ofNumeral_decimal (negative : Bool) (coefficient : Nat) (exponent : Int) :
    (ofNumeral (.decimal negative coefficient exponent)).isNaN = false :=
  isNaN_ofMagnitude negative (decimalMagnitude_le coefficient exponent)

end Binary64

/-- A run of digits and dots spells no word, so if it is a numeral, it is a decimal number. -/
theorem Numeral.exists_decimal_of_ofText? {run : List Char} {numeral : Numeral}
    (h : ∀ c ∈ run, isNumberChar c = true) (hread : ofText? run = some numeral) :
    ∃ negative coefficient exponent, numeral = .decimal negative coefficient exponent := by
  have hdecimal : readDecimal? false run = some numeral := by
    simpa [ofText?, splitSign_run h, readWord?_eq_none h] using hread
  unfold readDecimal? at hdecimal
  dsimp only at hdecimal
  split at hdecimal
  · cases hdecimal
  · obtain ⟨exponent, -, rfl⟩ := Option.map_eq_some_iff.mp hdecimal
    exact ⟨_, _, _, rfl⟩

theorem isNaN_readBinary64 {run : List Char} {x : Binary64}
    (h : ∀ c ∈ run, isNumberChar c = true) (hread : readBinary64 (String.ofList run) = .ok x) :
    x.isNaN = false := by
  rw [readBinary64, String.toList_ofList] at hread
  split at hread
  · cases hread
  · split at hread
    next numeral hnumeral =>
      obtain ⟨negative, coefficient, exponent, rfl⟩ :=
        Numeral.exists_decimal_of_ofText? h hnumeral
      cases hread
      exact Binary64.isNaN_ofNumeral_decimal negative coefficient exponent
    next => cases hread

end ScriptFrontend.Number
