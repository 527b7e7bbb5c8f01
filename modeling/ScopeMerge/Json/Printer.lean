import ScopeMerge.Json

/-!
# Writing a JSON text

There are two written forms of a value, with the same tokens: the compact one has no space
between tokens, and the pretty one has every item and member on a line of its own, indented by
two spaces for each container around it. Both leave an empty container on one line.

Strings escape the quote, the backslash and the control characters, and nothing else.
-/

namespace ScopeMerge.Json

/-! ## Scalars -/

/-- The digit of a value below sixteen. -/
def hexDigit (value : Nat) : Char :=
  if value < 10 then Char.ofNat ('0'.toNat + value) else Char.ofNat ('a'.toNat + (value - 10))

/-- How a character is written inside a string. -/
def escapeChar (c : Char) : List Char :=
  if c = '"' then ['\\', '"']
  else if c = '\\' then ['\\', '\\']
  else if c = '\x08' then ['\\', 'b']
  else if c = '\x0c' then ['\\', 'f']
  else if c = '\n' then ['\\', 'n']
  else if c = '\r' then ['\\', 'r']
  else if c = '\t' then ['\\', 't']
  else if c.toNat < 0x20 then
    ['\\', 'u', '0', '0', hexDigit (c.toNat / 16), hexDigit (c.toNat % 16)]
  else [c]

/-- A string in quotes. -/
def quote (text : String) : List Char :=
  '"' :: text.toList.flatMap escapeChar ++ ['"']

/-- A number as it is written. -/
def Number.chars (number : Number) : List Char :=
  (if number.negative then ['-'] else []) ++ Nat.toDigits 10 number.whole ++ number.tail.toList

/-- A string that no text holds. -/
def unreadableChars : List Char :=
  ['"', '\\', 'u', 'd', '8', '0', '0', '"']

/-! ## The compact form -/

mutual

/-- A value without spaces. -/
def compactChars : Json → List Char
  | .null => "null".toList
  | .bool value => if value then "true".toList else "false".toList
  | .number value => value.chars
  | .text value => quote value
  | .array items => '[' :: compactItems items ++ [']']
  | .object members => '\x7b' :: compactMembers members ++ ['\x7d']
  | .unreadable => unreadableChars

def compactItems : List Json → List Char
  | [] => []
  | [item] => compactChars item
  | item :: rest => compactChars item ++ ',' :: compactItems rest

def compactMembers : List (String × Json) → List Char
  | [] => []
  | [(key, value)] => quote key ++ ':' :: compactChars value
  | (key, value) :: rest => quote key ++ ':' :: compactChars value ++ ',' :: compactMembers rest

end

/-- The compact text of a value. -/
def compact (value : Json) : String :=
  String.ofList (compactChars value)

/-! ## The pretty form -/

/-- A line break and the indentation of a depth. -/
def lineBreak (depth : Nat) : List Char :=
  '\n' :: List.replicate (2 * depth) ' '

mutual

/-- A value on lines of its own, inside so many containers. -/
def prettyChars (depth : Nat) : Json → List Char
  | .array [] => ['[', ']']
  | .array (item :: rest) =>
    '[' :: lineBreak (depth + 1) ++ prettyChars (depth + 1) item ++ prettyItems (depth + 1) rest ++
      lineBreak depth ++ [']']
  | .object [] => ['\x7b', '\x7d']
  | .object ((key, value) :: rest) =>
    '\x7b' :: lineBreak (depth + 1) ++ quote key ++ [':', ' '] ++ prettyChars (depth + 1) value ++
      prettyMembers (depth + 1) rest ++ lineBreak depth ++ ['\x7d']
  | scalar => compactChars scalar

def prettyItems (depth : Nat) : List Json → List Char
  | [] => []
  | item :: rest => ',' :: lineBreak depth ++ prettyChars depth item ++ prettyItems depth rest

def prettyMembers (depth : Nat) : List (String × Json) → List Char
  | [] => []
  | (key, value) :: rest =>
    ',' :: lineBreak depth ++ quote key ++ [':', ' '] ++ prettyChars depth value ++
      prettyMembers depth rest

end

/-- The pretty text of a value. -/
def pretty (value : Json) : String :=
  String.ofList (prettyChars 0 value)

end ScopeMerge.Json
