/-!
# Decimal texts

How numbers are read from their decimal texts. `readSigned64` reads a signed 64-bit integer: an
optional sign and one or more digits, taken from the left, where the first fault wins, be it a
character that is no digit or a value that has left the range. A `Numeral` is what the text of a
floating-point number denotes before any rounding: an exact decimal number, an infinity or no number
at all. `Numeral.ofText?` accepts an optional sign and then one of the words `inf`, `infinity`,
`nan` in any letter case, or digits with at most one dot and at least one digit, optionally followed
by `e` or `E` and a decimal exponent. A digit is one of the ten ASCII digits; `Char.isDigit` tests
for it.
-/

namespace ScriptFrontend.Number

/-! ## Digits and signs -/

def digitValue (c : Char) : Nat := c.toNat - '0'.toNat

theorem digitValue_le {c : Char} (h : c.isDigit = true) : digitValue c ≤ 9 := by
  simp only [Char.isDigit, Bool.and_eq_true, decide_eq_true_eq, UInt32.le_iff_toNat_le] at h
  have : c.toNat ≤ 57 := h.2
  simp only [digitValue, Char.reduceToNat]
  omega

/-- The number that a run of digits writes in base ten. -/
def decimalValue (digits : List Char) : Nat :=
  digits.foldl (fun value c => 10 * value + digitValue c) 0

/-- Whether a minus leads the text, and what follows the sign if there is one. -/
def splitSign : List Char → Bool × List Char
  | '-' :: cs => (true, cs)
  | '+' :: cs => (false, cs)
  | cs => (false, cs)

/-! ## Signed 64-bit integers -/

/-- Why a text is no signed 64-bit integer. -/
inductive IntegerFault where
  | empty
  | invalidDigit
  | tooLarge
  | tooSmall
  deriving DecidableEq, Repr

def IntegerFault.message : IntegerFault → String
  | empty => "cannot parse integer from empty string"
  | invalidDigit => "invalid digit found in string"
  | tooLarge => "number too large to fit in target type"
  | tooSmall => "number too small to fit in target type"

/-- Appends digits to `value`, away from zero, as long as the result fits into 64 bits. -/
def appendDigits (negative : Bool) (value : Int) : List Char → Except IntegerFault Int
  | [] => .ok value
  | c :: cs =>
    if c.isDigit then
      let value := if negative then 10 * value - digitValue c else 10 * value + digitValue c
      if value < Int64.minValue.toInt then .error .tooSmall
      else if Int64.maxValue.toInt < value then .error .tooLarge
      else appendDigits negative value cs
    else
      .error .invalidDigit

def readSigned64 (text : String) : Except IntegerFault Int64 :=
  if text.isEmpty then
    .error .empty
  else
    match splitSign text.toList with
    | (_, []) => .error .invalidDigit
    | (negative, digits) => (appendDigits negative 0 digits).map Int64.ofInt

/-! ## Numerals -/

inductive Numeral where
  /-- The number `coefficient * 10 ^ exponent`, negated if so marked; zero keeps its sign. -/
  | decimal (negative : Bool) (coefficient : Nat) (exponent : Int)
  | infinity (negative : Bool)
  | notANumber
  deriving DecidableEq, Repr

namespace Numeral

/-- Reads the part after the digits: nothing, or a marked exponent. -/
def readExponent? : List Char → Option Int
  | [] => some 0
  | mark :: cs =>
    if mark == 'e' || mark == 'E' then
      match splitSign cs with
      | (_, []) => none
      | (negative, digits) =>
        if digits.all Char.isDigit then
          some (if negative then -(decimalValue digits : Int) else decimalValue digits)
        else
          none
    else
      none

/-- Reads the part after the leading digits: the digits after a dot, and what follows them. -/
def splitFraction : List Char → List Char × List Char
  | '.' :: cs => (cs.takeWhile Char.isDigit, cs.dropWhile Char.isDigit)
  | cs => ([], cs)

def readDecimal? (negative : Bool) (cs : List Char) : Option Numeral :=
  let whole := cs.takeWhile Char.isDigit
  let (fraction, rest) := splitFraction (cs.dropWhile Char.isDigit)
  if whole.isEmpty && fraction.isEmpty then
    none
  else
    (readExponent? rest).map fun exponent =>
      .decimal negative (decimalValue (whole ++ fraction)) (exponent - fraction.length)

/-- Reads one of the words for values that have no digits. -/
def readWord? (negative : Bool) (cs : List Char) : Option Numeral :=
  let word := cs.map Char.toLower
  if word == "inf".toList || word == "infinity".toList then some (.infinity negative)
  else if word == "nan".toList then some .notANumber
  else none

def ofText? (cs : List Char) : Option Numeral :=
  let (negative, body) := splitSign cs
  readDecimal? negative body <|> readWord? negative body

end Numeral

end ScriptFrontend.Number
