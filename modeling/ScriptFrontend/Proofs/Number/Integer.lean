import Mathlib.Algebra.GroupWithZero.Nat
import ScriptFrontend.Number.Decimal
import ScriptFrontend.Proofs.Number.Run

/-!
# Digits as signed integers

The reader of signed integers checks each digit and then the range. A run of digits is all read as
long as its whole value fits, since the value only grows away from zero; else the run overflows,
whatever comes after it (`appendDigits_run`). So digits without a sign give their decimal value, or
are too large (`readSigned64_of_digits`).
-/

namespace ScriptFrontend.Number

/-- The number with the sign that was read. -/
def signed (negative : Bool) (n : Nat) : Int := if negative then -n else n

/-- The value is one of a signed 64-bit integer. -/
def Fits64 (value : Int) : Prop := Int64.minValue.toInt ≤ value ∧ value ≤ Int64.maxValue.toInt

instance (value : Int) : Decidable (Fits64 value) := inferInstanceAs (Decidable (_ ∧ _))

/-- Leaving the range on the side of the sign. -/
def IntegerFault.overflow (negative : Bool) : IntegerFault :=
  if negative then .tooSmall else .tooLarge

/-- The number that is written by the digits of `n` and then these. -/
def extendValue (n : Nat) (digits : List Char) : Nat :=
  digits.foldl (fun value c => 10 * value + digitValue c) n

theorem extendValue_zero (digits : List Char) : extendValue 0 digits = decimalValue digits := rfl

theorem extendValue_cons (n : Nat) (c : Char) (digits : List Char) :
    extendValue n (c :: digits) = extendValue (10 * n + digitValue c) digits :=
  List.foldl_cons ..

theorem le_extendValue (n : Nat) (digits : List Char) : n ≤ extendValue n digits := by
  induction digits generalizing n with
  | nil => exact Nat.le_refl n
  | cons c digits ih =>
    have := ih (10 * n + digitValue c)
    rw [extendValue_cons]
    omega

/-- Below zero there is one value more. -/
theorem fits64_signed_iff {negative : Bool} {n : Nat} :
    Fits64 (signed negative n) ↔ n ≤ if negative then 2 ^ 63 else 2 ^ 63 - 1 := by
  rw [Fits64, Int64.toInt_minValue, Int64.toInt_maxValue]
  cases negative <;> simp only [signed, Bool.false_eq_true, reduceIte] <;> omega

theorem Fits64.of_le {negative : Bool} {m n : Nat} (h : Fits64 (signed negative n)) (hle : m ≤ n) :
    Fits64 (signed negative m) :=
  fits64_signed_iff.mpr (Nat.le_trans hle (fits64_signed_iff.mp h))

theorem appendDigits_cons {negative : Bool} {c : Char} (hc : c.isDigit = true) (n : Nat)
    (cs : List Char) :
    appendDigits negative (signed negative n) (c :: cs) =
      if Fits64 (signed negative (10 * n + digitValue c)) then
        appendDigits negative (signed negative (10 * n + digitValue c)) cs
      else .error (.overflow negative) := by
  have hvalue : (if negative then 10 * signed negative n - digitValue c
      else 10 * signed negative n + digitValue c) = signed negative (10 * n + digitValue c) := by
    cases negative <;> simp only [signed, Bool.false_eq_true, reduceIte] <;> omega
  rw [appendDigits, if_pos hc]
  dsimp only
  rw [hvalue]
  by_cases hfits : Fits64 (signed negative (10 * n + digitValue c))
  · rw [if_pos hfits, if_neg (Int.not_lt.mpr hfits.1), if_neg (Int.not_lt.mpr hfits.2)]
  · rw [if_neg hfits, Int64.toInt_minValue, Int64.toInt_maxValue]
    rw [fits64_signed_iff] at hfits
    cases negative <;> simp only [signed, Bool.false_eq_true, reduceIte] at hfits ⊢
    · rw [if_neg (by omega), if_pos (by omega), IntegerFault.overflow, if_neg (by decide)]
    · rw [if_pos (by omega), IntegerFault.overflow, if_pos rfl]

theorem appendDigits_run {negative : Bool} {run : List Char} (hrun : ∀ c ∈ run, c.isDigit = true)
    {n : Nat} (hn : Fits64 (signed negative n)) (rest : List Char) :
    appendDigits negative (signed negative n) (run ++ rest) =
      if Fits64 (signed negative (extendValue n run)) then
        appendDigits negative (signed negative (extendValue n run)) rest
      else .error (.overflow negative) := by
  induction run generalizing n with
  | nil => rw [List.nil_append, extendValue, List.foldl_nil, if_pos hn]
  | cons c run ih =>
    have htail : ∀ d ∈ run, d.isDigit = true := fun d hd => hrun d (List.mem_cons_of_mem c hd)
    rw [List.cons_append, appendDigits_cons (hrun c List.mem_cons_self), extendValue_cons]
    split
    next hfits => exact ih htail hfits
    next hfits =>
      -- the later digits do not bring the value back
      rw [if_neg fun h => hfits (h.of_le (le_extendValue _ run))]

/-- Digits without a sign are read in full, or are too large. -/
theorem readSigned64_of_digits {digits : List Char} (hne : digits ≠ [])
    (hdigits : ∀ c ∈ digits, c.isDigit = true) :
    readSigned64 (String.ofList digits) =
      if decimalValue digits ≤ 2 ^ 63 - 1 then .ok (.ofInt (decimalValue digits))
      else .error .tooLarge := by
  have hsign : splitSign digits = (false, digits) :=
    Numeral.splitSign_run fun c hc => isNumberChar_iff.mpr (.inl (hdigits c hc))
  have hempty : (String.ofList digits).isEmpty = false := by simpa using hne
  have hread : readSigned64 (String.ofList digits) =
      (appendDigits false (signed false 0) digits).map Int64.ofInt := by
    obtain ⟨c, cs, rfl⟩ := List.exists_cons_of_ne_nil hne
    rw [readSigned64, hempty, String.toList_ofList, hsign]
    rfl
  have hrun : appendDigits false (signed false 0) (digits ++ []) = _ :=
    appendDigits_run hdigits (by decide) []
  rw [List.append_nil, extendValue_zero] at hrun
  rw [hread, hrun]
  by_cases hle : decimalValue digits ≤ 2 ^ 63 - 1
  · rw [if_pos (fits64_signed_iff.mpr hle), if_pos hle]
    rfl
  · rw [if_neg (fun hfits => hle (fits64_signed_iff.mp hfits)), if_neg hle]
    rfl

end ScriptFrontend.Number
