import ScriptFrontend.Number.Decimal

/-!
# Double-precision numbers

A `Binary64` is the 64-bit pattern of an IEEE 754 double: a sign bit and a magnitude of 63 bits,
in which larger patterns stand for larger numbers up to infinity and the patterns above infinity
are no numbers. `Binary64.equal` compares as numbers, and `readBinary64` reads a decimal text and
rounds it once, correctly.
-/

namespace ScriptFrontend.Number

structure Binary64 where
  bits : UInt64

namespace Binary64

/-- The highest bit, the sign, has the weight `2 ^ 63`. -/
def signBit : Nat := 0x8000000000000000

/-- Between a power of two and the next one lie `2 ^ 52` patterns. -/
def binade : Nat := 0x10000000000000

/-- The pattern without its sign bit. -/
def magnitude (x : Binary64) : Nat := x.bits.toNat % signBit

def isNegative (x : Binary64) : Bool := signBit ≤ x.bits.toNat

/-- The magnitude of the two infinities. -/
def infinityMagnitude : Nat := 2047 * binade

def isNaN (x : Binary64) : Bool := infinityMagnitude < x.magnitude

/-- Orders the numbers among the patterns; the two zeros share a key. -/
def key (x : Binary64) : Int := if x.isNegative then -x.magnitude else x.magnitude

/-- Equality of numbers: the zeros are equal, and what is no number equals nothing. -/
def equal (x y : Binary64) : Bool := !x.isNaN && !y.isNaN && x.key == y.key

def ofMagnitude (negative : Bool) (magnitude : Nat) : Binary64 :=
  ⟨UInt64.ofNat (if negative then signBit + magnitude else magnitude)⟩

theorem magnitude_ofMagnitude (negative : Bool) {m : Nat} (h : m < signBit) :
    (ofMagnitude negative m).magnitude = m := by
  cases negative <;>
    simp only [ofMagnitude, magnitude, signBit, UInt64.toNat_ofNat', Bool.false_eq_true,
      reduceIte] at h ⊢ <;> omega

/-- The usual one of the patterns beyond infinity, half a binade above it. -/
def nan : Binary64 := ofMagnitude false (infinityMagnitude + binade / 2)

/-- `num / den` rounded to the nearest whole number; of two equally near the even one. -/
def roundHalfEven (num den : Nat) : Nat :=
  let quotient := num / den
  let rest := num % den
  if 2 * rest < den then quotient
  else if den < 2 * rest then quotient + 1
  else quotient + quotient % 2

/--
The magnitude of the number nearest to `num / den`, of two equally near the one with the even
significand. The quotient is counted in units of the least positive number, `2 ^ -1074`; a count
of more than 53 bits loses its last `step` bits, and each bit lost moves the magnitude up by a
binade. Rounding up into the next binade needs no case of its own, and everything from the first
number beyond the largest finite one is infinity.
-/
def nearestMagnitude (num den : Nat) : Nat :=
  let units := num <<< 1074
  let step := (units / den).log2 - 52
  min infinityMagnitude (step * binade + roundHalfEven units (den <<< step))

/--
The magnitude nearest to `coefficient * 10 ^ exponent`. Two cases are decided without the power of
ten, which keeps it small: a number of at least `10 ^ 400` is infinite, and a number below
`2 ^ -1099` is zero.
-/
def decimalMagnitude (coefficient : Nat) (exponent : Int) : Nat :=
  if coefficient = 0 then 0
  else if 400 ≤ exponent then infinityMagnitude
  else if coefficient.log2 + 1100 < 3 * (-exponent).toNat then 0
  else nearestMagnitude (coefficient * Nat.pow 10 exponent.toNat) (Nat.pow 10 (-exponent).toNat)

def ofNumeral : Numeral → Binary64
  | .decimal negative coefficient exponent =>
    ofMagnitude negative (decimalMagnitude coefficient exponent)
  | .infinity negative => ofMagnitude negative infinityMagnitude
  | .notANumber => nan

end Binary64

/-- Why a text is no floating-point number. -/
inductive FloatFault where
  | empty
  | invalid
  deriving DecidableEq, Repr

def FloatFault.message : FloatFault → String
  | empty => "cannot parse float from empty string"
  | invalid => "invalid float literal"

def readBinary64 (text : String) : Except FloatFault Binary64 :=
  if text.isEmpty then
    .error .empty
  else
    match Numeral.ofText? text.toList with
    | some numeral => .ok (.ofNumeral numeral)
    | none => .error .invalid

end ScriptFrontend.Number
