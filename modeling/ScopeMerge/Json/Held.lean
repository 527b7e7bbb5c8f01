import ScopeMerge.Decimal.Binary64
import ScopeMerge.Json.Token

/-!
# Values that are held

Where it cannot be told yet what a value is for, the value is held until it can. Then all of it
has to be readable, and every number in it has to be in the range of the 64-bit binary format.

Numbers are brought into this format quickly rather than exactly:

* their digits are gathered in an integer of 64 bits; from the first digit on that does not fit,
  digits count only as places;
* the gathered integer and the power of ten that belongs to it are rounded to the format one by
  one, and their product is rounded once more.

The three roundings can lead beyond the largest number of the format where one rounding would not.
A number that is too small is never refused, for it is held as zero.
-/

namespace ScopeMerge.Json

/-! ## Numbers -/

/-- Gathers digits behind those of an integer: the longer integer, and how many digits are left
over because it would not have 64 bits any more. -/
def gather (integer : Nat) : List Char → Nat × Nat
  | [] => (integer, 0)
  | c :: rest =>
    let longer := 10 * integer + (digit? c).getD 0
    if longer < UInt64.size then gather longer rest else (integer, rest.length + 1)

namespace Number

/-- Whether a character begins the exponent of a number. -/
def isExponentMark (c : Char) : Bool := c == 'e' || c == 'E'

/-- The digits of the fraction. -/
def fraction (number : Number) : List Char :=
  (number.tail.toList.takeWhile (!isExponentMark ·)).filter isDigit

/-- The exponent. -/
def exponent (number : Number) : Int :=
  let written := number.tail.toList.dropWhile (!isExponentMark ·)
  let magnitude : Int := ofDigits (written.filter isDigit)
  if written.contains '-' then -magnitude else magnitude

/-- The gathered digits and the power of ten that belongs to them. -/
def gathered (number : Number) : Nat × Int :=
  let (front, cut) := gather 0 (Nat.toDigits 10 number.whole)
  let (all, dropped) := gather front number.fraction
  (all, number.exponent + cut + dropped - number.fraction.length)

/-- Whether a number can be held. -/
def isHoldable (number : Number) : Bool :=
  let (coefficient, exponent) := number.gathered
  exponent < 0 ||
    ((Binary64.ofDecimal { coefficient }).mul
      (Binary64.ofDecimal { coefficient := 1, exponent })).isFinite || coefficient == 0

end Number

/-! ## Values -/

/-- Whether a scalar can be held. -/
def isHoldableScalar : Json → Bool
  | .number n => n.isHoldable
  | .unreadable => false
  | _ => true

/-- Whether a value can be held. -/
def isHoldable (json : Json) : Bool := json.allScalars isHoldableScalar

end ScopeMerge.Json
