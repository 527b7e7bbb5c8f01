/-!
# Binary floating point numbers, exactly

Configuration files and units can hold floating point numbers. The library has no use for them
beyond reading them and, when one stands where it is not wanted, writing it into a message. All
of this is exact integer arithmetic on the 64-bit binary format:

* a decimal numeral denotes the nearest number of the format, a tie going to the even
  significand, and is infinite when it is beyond the largest one by at least half a step;
* a product is the number of the format that is nearest to it, in the same sense;
* a number is written with the fewest digits that denote it again, and of several such numerals
  with the one nearest to it, the larger of two equally near ones, in positional notation.
-/

namespace ScopeMerge

/-- A decimal numeral: a coefficient times a power of ten. -/
structure Decimal where
  negative : Bool := false
  coefficient : Nat
  exponent : Int := 0
deriving DecidableEq, Inhabited

/-- A number of the 64-bit binary format; a finite one is a significand times a power of two. -/
inductive Binary64 where
  | finite (negative : Bool) (significand : Nat) (exponent : Int)
  | infinite (negative : Bool)
  | undefined
deriving DecidableEq, Inhabited

namespace Binary64

/-! ## Fractions -/

/-- A positive fraction times a power of a base. -/
def scale (base : Nat) (exponent : Int) (fraction : Nat × Nat) : Nat × Nat :=
  if exponent ≥ 0 then (fraction.1 * base.pow exponent.toNat, fraction.2)
  else (fraction.1, fraction.2 * base.pow (-exponent).toNat)

/-- A fraction rounded to the nearest integer, a tie going to the even one. -/
def roundToEven (fraction : Nat × Nat) : Nat :=
  let quotient := fraction.1 / fraction.2
  let rest := 2 * (fraction.1 % fraction.2)
  if rest > fraction.2 ∨ (rest = fraction.2 ∧ quotient % 2 = 1) then quotient + 1 else quotient

/-! ## Reading a numeral -/

/-- The exponent of the smallest step of the format. -/
def leastExponent : Int := -1074

/-- The least significand of a number with full precision, which is one of 53 bits. -/
def leastNormal : Nat := Nat.pow 2 52

/-- The exponent of the step of the format around a positive fraction. -/
def stepExponent (fraction : Nat × Nat) : Int :=
  let guess : Int := (fraction.1.log2 : Int) - fraction.2.log2 - 52
  let scaled := scale 2 (-guess) fraction
  let exact := if scaled.1 / scaled.2 < leastNormal then guess - 1 else guess
  max exact leastExponent

/-- The exponent of the largest step of the format. -/
def greatestExponent : Int := 971

/-- A rounded significand with the exponent of its step. One that was rounded up to a power of two
beyond 53 bits is written with the step of that power, which is twice as wide. -/
def carried (significand : Nat) (exponent : Int) : Nat × Int :=
  if significand = 2 * leastNormal then (leastNormal, exponent + 1) else (significand, exponent)

/-- The number nearest to a positive fraction. -/
def ofFraction (negative : Bool) (fraction : Nat × Nat) : Binary64 :=
  let step := stepExponent fraction
  let (significand, exponent) := carried (roundToEven (scale 2 (-step) fraction)) step
  if exponent > greatestExponent then infinite negative
  else finite negative significand exponent

/-- The number that a numeral denotes. Numerals far outside the range of the format are told by
their number of digits. -/
def ofDecimal (numeral : Decimal) : Binary64 :=
  let magnitude : Int := (Nat.toDigits 10 numeral.coefficient).length + numeral.exponent
  if numeral.coefficient = 0 ∨ magnitude < -400 then finite numeral.negative 0 leastExponent
  else if magnitude > 400 then infinite numeral.negative
  else ofFraction numeral.negative (scale 10 numeral.exponent (numeral.coefficient, 1))

/-! ## Products -/

/-- Whether a number is finite. -/
def isFinite : Binary64 → Bool
  | finite .. => true
  | _ => false

/-- The number nearest to a significand times a power of two. -/
def ofScaled (negative : Bool) (significand : Nat) (exponent : Int) : Binary64 :=
  if significand = 0 then finite negative 0 leastExponent
  else ofFraction negative (scale 2 exponent (significand, 1))

/-- The number nearest to a product. Zero times infinity is undefined. -/
def mul : Binary64 → Binary64 → Binary64
  | finite s m p, finite t n q => ofScaled (s != t) (m * n) (p + q)
  | finite s m _, infinite t => if m = 0 then undefined else infinite (s != t)
  | infinite s, finite t n _ => if n = 0 then undefined else infinite (s != t)
  | infinite s, infinite t => infinite (s != t)
  | _, _ => undefined

/-! ## Writing a number -/

/-- The ends of the interval of values that round to a number, with the number itself between
them, in quarters of its step. The step below a power of two is half as wide. -/
def quarters (significand : Nat) (exponent : Int) : Nat × Nat × Nat :=
  let lower := if significand = leastNormal ∧ exponent > leastExponent then 1 else 2
  (4 * significand - lower, 4 * significand, 4 * significand + 2)

/-- The nearest multiple of a power of ten that denotes a positive number, if there is one: its
coefficient. Of two equally near multiples it is the larger one. -/
def multiple? (significand : Nat) (exponent power : Int) : Option Nat :=
  let (low, middle, high) := quarters significand exponent
  -- a multiple of the power of ten, in quarters of a step
  let (unit, parts) := scale 2 (2 - exponent) (scale 10 power (1, 1))
  let inside (k : Nat) : Bool :=
    if significand % 2 = 0 then low * parts ≤ k * unit ∧ k * unit ≤ high * parts
    else low * parts < k * unit ∧ k * unit < high * parts
  let below := middle * parts / unit
  let above := below + 1
  let distanceBelow := middle * parts - below * unit
  let distanceAbove := above * unit - middle * parts
  match inside below, inside above with
  | true, true => some (if distanceAbove ≤ distanceBelow then above else below)
  | true, false => some below
  | false, true => some above
  | false, false => none

/-- The powers of ten that a numeral of the format can need, the largest first. -/
def powers : List Int :=
  (List.range 660).map fun (k : Nat) => 310 - Int.ofNat k

/-- The shortest numeral of a positive number: coefficient and power of ten. -/
def shortest (significand : Nat) (exponent : Int) : Nat × Int :=
  (powers.findSome? fun power =>
    (multiple? significand exponent power).map fun coefficient => (coefficient, power)).getD (0, 0)

/-- A coefficient times a power of ten in positional notation. -/
def positional (coefficient : Nat) (power : Int) : String :=
  let digits := Nat.toDigits 10 coefficient
  if power ≥ 0 then String.ofList (digits ++ List.replicate power.toNat '0')
  else
    let places := (-power).toNat
    let padded := List.replicate (places + 1 - digits.length) '0' ++ digits
    let whole := padded.length - places
    String.ofList (padded.take whole ++ '.' :: padded.drop whole)

/-- A number in words. -/
def render : Binary64 → String
  | undefined => "NaN"
  | infinite negative => if negative then "-inf" else "inf"
  | finite negative significand exponent =>
    let sign := if negative then "-" else ""
    if significand = 0 then sign ++ "0"
    else
      let (coefficient, power) := shortest significand exponent
      sign ++ positional coefficient power

end Binary64

end ScopeMerge
