/-!
# Cutting and trimming text

Names, option values and key paths are all texts with a separator in them. This module cuts a
text at every separator, without dropping anything: joining the pieces with the separator gives
the text back, and a text without a separator is its own only piece. Trimming removes blank
characters from both ends, where a character is blank when it has the Unicode property
White_Space.
-/

namespace ScopeMerge.Text

/-! ## Blank characters -/

/-- The characters with the property White_Space. -/
def isBlank (c : Char) : Bool :=
  let code := c.toNat
  (0x9 ≤ code && code ≤ 0xd) || code == 0x20 || code == 0x85 || code == 0xa0 || code == 0x1680 ||
    (0x2000 ≤ code && code ≤ 0x200a) || code == 0x2028 || code == 0x2029 || code == 0x202f ||
    code == 0x205f || code == 0x3000

/-- A list of characters without the blank ones at either end. -/
def trimChars (chars : List Char) : List Char :=
  ((chars.dropWhile isBlank).reverse.dropWhile isBlank).reverse

/-- A text without the blank characters at either end. -/
def trim (text : String) : String :=
  String.ofList (trimChars text.toList)

/-- Equality of texts in which ASCII letters of either case count as the same. -/
def equalIgnoringAsciiCase (a b : String) : Bool :=
  a.toList.map Char.toLower == b.toList.map Char.toLower

/-! ## Pieces between separators -/

/-- The maximal runs of characters that are not the separator, empty runs included. -/
def splitChars (separator : Char) : List Char → List (List Char)
  | [] => [[]]
  | c :: rest =>
    if c = separator then [] :: splitChars separator rest
    else (splitChars separator rest).modifyHead (c :: ·)

/-- The pieces of a text between its separators; there is one more of them than separators. -/
def pieces (separator : Char) (text : String) : List String :=
  (splitChars separator text.toList).map String.ofList

/-- Cuts a text in two at its first separator. -/
def cutAtFirst? (separator : Char) (text : String) : Option (String × String) :=
  match text.toList.span (· != separator) with
  | (_, []) => none
  | (before, _ :: after) => some (String.ofList before, String.ofList after)

end ScopeMerge.Text
