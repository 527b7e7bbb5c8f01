import ScopeMerge.Config.Setting
import ScopeMerge.Toml.Reader

/-!
# The values of environment variables

What the value of a variable means is guessed from its text. There are truth values, strings in
double quotes, single characters in single quotes, lists in brackets, tables in braces, and words.
The blank characters of ASCII around any of these count for nothing. A word is made of the
characters up to the next comma, bracket or brace, and loses blank characters of every kind at both
ends; it is a number if it reads as one, and otherwise stands for itself.

A text that does not have one of these forms to its very end stands for itself, with all the blanks
around it.

A reader takes the characters from some place on and answers with what it made of their beginning
and with the characters that are left.
-/

namespace ScopeMerge.Config.Environment

/-! ## Blanks -/

/-- Whether a character may stand around values: a space, a tab or one that ends a line or page. -/
def isBlank (c : Char) : Bool :=
  c == ' ' || c == '\t' || c == '\n' || c == '\r' || c == '\x0c'

def skipBlanks (chars : List Char) : List Char := chars.dropWhile isBlank

/-! ## Numbers -/

/-- The number that a nonempty text of digits spells. -/
def digits? (chars : List Char) : Option Nat :=
  if chars.isEmpty || !chars.all Toml.isDigit then none else some (Toml.ofDigits 10 chars)

/-- An integer of the range of 64 bits; a plus sign may come first. -/
def integer? (chars : List Char) : Option Setting :=
  match chars with
  | '-' :: unsigned =>
    (digits? unsigned).bind fun n =>
      if Int64.minValue.toInt ≤ -n then some (.signed (-n)) else none
  | _ =>
    let unsigned := if chars.head? = some '+' then chars.tail else chars
    (digits? unsigned).bind fun n => if n < UInt64.size then some (.unsigned n) else none

/-- A floating point number with a point in it; digits may be missing on one side of the point. -/
def float? (chars : List Char) : Option Setting := do
  let (negative, unsigned) := Toml.sign chars
  let whole := unsigned.takeWhile Toml.isDigit
  match unsigned.drop whole.length with
  | '.' :: rest =>
    let fraction := rest.takeWhile Toml.isDigit
    if whole.isEmpty && fraction.isEmpty then none
    else
      let power ←
        match rest.drop fraction.length with
        | [] => pure 0
        | mark :: digits =>
          if mark = 'e' ∨ mark = 'E' then
            let (below, magnitude) := Toml.sign digits
            (digits? magnitude).map fun n => if below then -(n : Int) else n
          else none
      return .float (Binary64.ofDecimal
        { negative, coefficient := Toml.ofDigits 10 (whole ++ fraction),
          exponent := power - fraction.length })
  | _ => none

/-! ## Words and strings -/

/-- Whether a character can be part of a word. -/
def isWordChar (c : Char) : Bool :=
  c != ',' && c != '[' && c != ']' && c != '\x7b' && c != '\x7d'

/-- The setting that a word gives. -/
def ofWord (chars : List Char) : Setting :=
  let word := Text.trimChars chars
  ((float? word).or (integer? word)).getD (.text (String.ofList word))

/-- The first characters of a text that fit into so many bytes. -/
def fitting : Nat → List Char → List Char
  | _, [] => []
  | room, c :: rest => if c.utf8Size ≤ room then c :: fitting (room - c.utf8Size) rest else []

/-- The rest of a string in double quotes, after the opening quote. If there are escapes, the
characters before the first one have to fit into as many bytes as there are characters, and those
that do not are lost. -/
def string? (chars : List Char) : Option (String × List Char) := do
  let (content, after) ← Toml.basicString? chars
  let plain := chars.takeWhile fun c => c != '"' && c != '\\'
  if (chars.drop plain.length).head? = some '\\' then
    return (String.ofList (fitting plain.length plain ++ content.drop plain.length), after)
  else return (String.ofList content, after)

/-- The rest of a single character in quotes, after the opening quote. -/
def character? : List Char → Option (String × List Char)
  | c :: '\'' :: rest => some (c.toString, rest)
  | _ => none

/-- A key: a bare word or a string. -/
def key? : List Char → Option (String × List Char)
  | '"' :: rest => string? rest
  | chars =>
    let word := chars.takeWhile Toml.isBareKeyChar
    if word.isEmpty then none else some (String.ofList word, chars.drop word.length)

/-! ## Values -/

/-- The truth value that a text begins with. -/
def bool? (chars : List Char) : Option (Setting × List Char) :=
  if "true".toList.isPrefixOf chars then some (.bool true, chars.drop 4)
  else if "false".toList.isPrefixOf chars then some (.bool false, chars.drop 5)
  else none

mutual

/-- A value and the blanks around it. Every step that does not read a character is followed by
one that does, so twice the length of the text is fuel enough. -/
def value? : Nat → List Char → Option (Setting × List Char)
  | 0, _ => none
  | fuel + 1, chars => do
    let inside := skipBlanks chars
    let (setting, after) ←
      match inside with
      | '"' :: rest => (string? rest).map fun (content, after) => (.text content, after)
      | '\'' :: rest => (character? rest).map fun (content, after) => (.text content, after)
      | '[' :: rest => (items? fuel rest).map fun (items, after) => (.sequence items, after)
      | '\x7b' :: rest =>
        (entries? fuel rest []).map fun (entries, after) => (.table entries, after)
      | _ =>
        (bool? inside).or
          (some (ofWord (inside.takeWhile isWordChar), inside.dropWhile isWordChar))
    return (setting, skipBlanks after)

/-- The items of a list, after the opening bracket or a comma, and its end. -/
def items? : Nat → List Char → Option (List Setting × List Char)
  | 0, _ => none
  | _ + 1, ']' :: rest => some ([], rest)
  | fuel + 1, chars => do
    let (item, after) ← value? fuel chars
    match after with
    | ',' :: rest => do
      let (more, last) ← items? fuel rest
      return (item :: more, last)
    | ']' :: rest => return ([item], rest)
    | _ => none

/-- The entries of a table, after the opening brace or a comma, and its end, laid over some
earlier entries. -/
def entries? : Nat → List Char → List (String × Setting) →
    Option (List (String × Setting) × List Char)
  | 0, _, _ => none
  | _ + 1, '\x7d' :: rest, earlier => some (earlier, rest)
  | fuel + 1, chars, earlier => do
    let (key, afterKey) ← key? (skipBlanks chars)
    match skipBlanks afterKey with
    | '=' :: rest => do
      let (setting, after) ← value? fuel rest
      let entries := Setting.put earlier key setting
      match after with
      | ',' :: rest => entries? fuel rest entries
      | '\x7d' :: rest => return (entries, rest)
      | _ => none
    | _ => none

end

/-- The setting that a variable's value gives. -/
def guess (value : String) : Setting :=
  match value? (2 * value.length + 2) value.toList with
  | some (setting, []) => setting
  | _ => .text value

end ScopeMerge.Config.Environment
