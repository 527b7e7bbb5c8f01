/-!
# JSON values

The values of the interchange format that compilation units are kept in, as the standard defines
them, with two choices of this library:

* A number is kept as written: sign, integer part, and the text of fraction and exponent. Whether
  it is an integer can be told exactly, and nothing is rounded.
* A string may name half of a surrogate pair by an escape, and no text holds that. Such a string
  is valid JSON but *unreadable*, and so is an object with such a string as a key. It does no harm
  where it is skipped, and is refused where its content is needed.
-/

namespace ScopeMerge

/-- A number as it is written. -/
structure Json.Number where
  negative : Bool := false
  /-- The integer part. -/
  whole : Nat
  /-- The fraction and the exponent, as written. -/
  tail : String := ""
deriving DecidableEq, Inhabited

/-- A JSON value. -/
inductive Json where
  | null
  | bool (value : Bool)
  | number (value : Json.Number)
  | text (value : String)
  | array (items : List Json)
  | object (members : List (String × Json))
  /-- A string or an object that names half of a surrogate pair. -/
  | unreadable
deriving Inhabited

namespace Json

/-! ## Numbers -/

/-- The number that an integer is written as. -/
def Number.ofInt (value : Int) : Number :=
  { negative := decide (value < 0), whole := value.natAbs }

/-- The integer that a number is written as. A negative zero is not one. -/
def Number.toInt? (number : Number) : Option Int :=
  if number.tail ≠ "" ∨ (number.negative ∧ number.whole = 0) then none
  else some (if number.negative then -(number.whole : Int) else number.whole)

/-- An integer. -/
def int (value : Int) : Json := .number (.ofInt value)

/-- A natural number. -/
def nat (value : Nat) : Json := .number { whole := value }

/-! ## Reading a value as one of its kinds -/

def asText? : Json → Option String
  | .text value => some value
  | _ => none

def asBool? : Json → Option Bool
  | .bool value => some value
  | _ => none

def asInt? : Json → Option Int
  | .number value => value.toInt?
  | _ => none

def asArray? : Json → Option (List Json)
  | .array items => some items
  | _ => none

def asObject? : Json → Option (List (String × Json))
  | .object members => some members
  | _ => none

/-! ## Measures of a whole value -/

mutual

/-- How deep arrays and objects are nested. -/
def depth : Json → Nat
  | .array items => depthOfItems items + 1
  | .object members => depthOfMembers members + 1
  | .unreadable => 1
  | _ => 0

def depthOfItems : List Json → Nat
  | [] => 0
  | item :: rest => max item.depth (depthOfItems rest)

def depthOfMembers : List (String × Json) → Nat
  | [] => 0
  | (_, value) :: rest => max value.depth (depthOfMembers rest)

end

mutual

/-- Whether every scalar inside a value satisfies a test. -/
def allScalars (test : Json → Bool) : Json → Bool
  | .array items => allInItems test items
  | .object members => allInMembers test members
  | scalar => test scalar

def allInItems (test : Json → Bool) : List Json → Bool
  | [] => true
  | item :: rest => allScalars test item && allInItems test rest

def allInMembers (test : Json → Bool) : List (String × Json) → Bool
  | [] => true
  | (_, value) :: rest => allScalars test value && allInMembers test rest

end

end Json

end ScopeMerge
