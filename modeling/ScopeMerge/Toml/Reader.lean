import ScopeMerge.Text.Pieces
import ScopeMerge.Toml

/-!
# Reading a configuration document

A document is read statement by statement. What can go wrong is not told apart: a text either is
a document or it is not.

A reader takes the characters from some place on and answers with what it made of their beginning
and with the characters that are left.

Keys are bare words or quoted strings, joined by dots. Values are strings in double or single
quotes on one line, integers in four bases, floating point numbers, truth values, arrays and
tables in braces. An array may run over several lines and may end in a comma; a table in braces
may do neither. Nothing is nested deeper than a fixed depth: neither arrays and tables in braces
in each other, nor tables by the parts of one key.
-/

namespace ScopeMerge.Toml

/-- The greatest depth of nesting. -/
def maxDepth : Nat := 79

/-! ## Blanks, comments and line ends -/

def isBlank (c : Char) : Bool := c == ' ' || c == '\t'

def skipBlanks (chars : List Char) : List Char := chars.dropWhile isBlank

/-- Whether a character may stand in a comment or in a quoted string. -/
def isPlain (c : Char) : Bool := c == '\t' || (0x20 ≤ c.toNat && c.toNat ≠ 0x7f)

/-- Skips a comment, if there is one. -/
def skipComment : List Char → List Char
  | '#' :: rest => rest.dropWhile isPlain
  | chars => chars

/-- Skips one line end. -/
def lineEnd? : List Char → Option (List Char)
  | '\n' :: rest => some rest
  | '\r' :: '\n' :: rest => some rest
  | _ => none

/-- Skips what may follow a statement on its line, and the line end unless the text ends. -/
def restOfLine? (chars : List Char) : Option (List Char) :=
  match skipComment (skipBlanks chars) with
  | [] => some []
  | rest => lineEnd? rest

/-- Skips blanks, comments and line ends, at most so many lines. -/
def skipLines : Nat → List Char → List Char
  | 0, chars => chars
  | lines + 1, chars =>
    let rest := skipComment (skipBlanks chars)
    match lineEnd? rest with
    | some next => skipLines lines next
    | none => rest

/-! ## Strings -/

/-- The value of a hexadecimal digit. -/
def hexDigit? (c : Char) : Option Nat :=
  if '0' ≤ c ∧ c ≤ '9' then some (c.toNat - '0'.toNat)
  else if 'a' ≤ c ∧ c ≤ 'f' then some (c.toNat - 'a'.toNat + 10)
  else if 'A' ≤ c ∧ c ≤ 'F' then some (c.toNat - 'A'.toNat + 10)
  else none

/-- The character with a hexadecimal code point. -/
def codePoint? (digits : List Char) : Option Char := do
  let code ← digits.foldlM (fun n c => (hexDigit? c).map (16 * n + ·)) 0
  if h : code.isValidChar then some (Char.ofNatAux code h) else none

/-- The character that a one-letter escape stands for. -/
def escaped? : Char → Option Char
  | '"' => some '"'
  | '\\' => some '\\'
  | 'b' => some '\x08'
  | 'f' => some '\x0c'
  | 'n' => some '\n'
  | 'r' => some '\r'
  | 't' => some '\t'
  | _ => none

/-- The rest of a string in double quotes, after the opening quote. -/
def basicString? : List Char → Option (List Char × List Char)
  | [] => none
  | '"' :: rest => some ([], rest)
  | '\\' :: 'u' :: a :: b :: c :: d :: rest => do
    let char ← codePoint? [a, b, c, d]
    let (more, after) ← basicString? rest
    return (char :: more, after)
  | '\\' :: 'U' :: a :: b :: c :: d :: e :: f :: g :: h :: rest => do
    let char ← codePoint? [a, b, c, d, e, f, g, h]
    let (more, after) ← basicString? rest
    return (char :: more, after)
  | '\\' :: letter :: rest => do
    let char ← escaped? letter
    let (more, after) ← basicString? rest
    return (char :: more, after)
  | char :: rest =>
    if char ≠ '\\' ∧ isPlain char then do
      let (more, after) ← basicString? rest
      return (char :: more, after)
    else none

/-- The rest of a string in single quotes, after the opening quote. -/
def literalString? (chars : List Char) : Option (List Char × List Char) :=
  let content := chars.takeWhile fun c => c != '\'' && isPlain c
  match chars.drop content.length with
  | '\'' :: rest => some (content, rest)
  | _ => none

/-! ## Keys -/

def isBareKeyChar (c : Char) : Bool := c.isAlphanum || c == '_' || c == '-'

/-- One part of a key. -/
def keyPart? : List Char → Option (String × List Char)
  | '"' :: rest => (basicString? rest).map fun (content, after) => (String.ofList content, after)
  | '\'' :: rest => (literalString? rest).map fun (content, after) => (String.ofList content, after)
  | chars =>
    let word := chars.takeWhile isBareKeyChar
    if word.isEmpty then none else some (String.ofList word, chars.drop word.length)

/-- A key of at most so many parts, with the blanks around it. -/
def key? : Nat → List Char → Option (List String × List Char)
  | 0, _ => none
  | parts + 1, chars => do
    let (part, after) ← keyPart? (skipBlanks chars)
    match skipBlanks after with
    | '.' :: rest => do
      let (more, last) ← key? parts rest
      return (part :: more, last)
    | rest => return ([part], rest)

/-! ## Numbers and truth values -/

def isDigit (c : Char) : Bool := '0' ≤ c && c ≤ '9'

/-- Digits of some class, possibly with single underscores between them, without the
underscores. -/
def digits? (isDigitOfBase : Char → Bool) (chars : List Char) : Option (List Char) :=
  let groups := Text.splitChars '_' chars
  if groups.all fun group => !group.isEmpty && group.all isDigitOfBase then some groups.flatten
  else none

/-- The number that digits of a base spell. -/
def ofDigits (base : Nat) (digits : List Char) : Nat :=
  digits.foldl (fun n c => base * n + (hexDigit? c).getD 0) 0

/-- An integer of the range of 64 bits. -/
def inRange? (value : Int) : Option Int :=
  if Int64.minValue.toInt ≤ value ∧ value ≤ Int64.maxValue.toInt then some value else none

/-- A sign, if there is one: whether it is a minus, and what follows. -/
def sign : List Char → Bool × List Char
  | '+' :: rest => (false, rest)
  | '-' :: rest => (true, rest)
  | chars => (false, chars)

/-- The digits of a decimal integer: none of them a needless zero. -/
def decimalDigits? (chars : List Char) : Option (List Char) := do
  let digits ← digits? isDigit chars
  if digits.length > 1 ∧ digits.head? = some '0' then none else some digits

/-- An integer in one of the four bases. -/
def integer? : List Char → Option Int
  | '0' :: 'x' :: rest =>
    (digits? (hexDigit? · |>.isSome) rest).bind fun digits => inRange? (ofDigits 16 digits)
  | '0' :: 'o' :: rest =>
    (digits? (fun c => '0' ≤ c && c ≤ '7') rest).bind fun digits => inRange? (ofDigits 8 digits)
  | '0' :: 'b' :: rest =>
    (digits? (fun c => c == '0' || c == '1') rest).bind fun digits => inRange? (ofDigits 2 digits)
  | chars => do
    let (negative, unsigned) := sign chars
    let digits ← decimalDigits? unsigned
    let magnitude : Int := ofDigits 10 digits
    inRange? (if negative then -magnitude else magnitude)

/-- An exponent, after its letter. -/
def exponent? (chars : List Char) : Option Int := do
  let (negative, unsigned) := sign chars
  let digits ← digits? isDigit unsigned
  let magnitude : Int := ofDigits 10 digits
  return if negative then -magnitude else magnitude

/-- A floating point number with a fraction, an exponent or both. A positive one beyond the
largest number of the format is refused. -/
def numeral? (chars : List Char) : Option Binary64 := do
  let (negative, unsigned) := sign chars
  let isMark (c : Char) : Bool := c == '.' || c == 'e' || c == 'E'
  let whole ← decimalDigits? (unsigned.takeWhile (!isMark ·))
  let (fraction, power) ←
    match unsigned.dropWhile (!isMark ·) with
    | '.' :: rest => do
      let fraction ← digits? isDigit (rest.takeWhile (!isMark ·))
      match rest.dropWhile (!isMark ·) with
      | [] => pure (fraction, 0)
      | '.' :: _ => none
      | _ :: power => (exponent? power).map (fraction, ·)
    | _ :: power => (exponent? power).map ([], ·)
    | [] => none
  let value := Binary64.ofDecimal
    { negative, coefficient := ofDigits 10 (whole ++ fraction)
      exponent := power - fraction.length }
  if value = .infinite false then none else some value

/-- A floating point number. -/
def float? (chars : List Char) : Option Binary64 :=
  let (negative, unsigned) := sign chars
  if unsigned = "inf".toList then some (.infinite negative)
  else if unsigned = "nan".toList then some .undefined
  else numeral? chars

/-- A value that is a single word. -/
def word? (chars : List Char) : Option Value :=
  if chars = "true".toList then some (.bool true)
  else if chars = "false".toList then some (.bool false)
  else ((integer? chars).map .integer).or ((float? chars).map .float)

/-- The characters that words consist of. -/
def isWordChar (c : Char) : Bool := c.isAlphanum || c == '_' || c == '+' || c == '-' || c == '.'

/-! ## Values -/

mutual

/-- A value in which so many arrays and tables may be nested. Every step that does not read a
character is followed by one that does, so twice the length of the text is fuel enough. -/
def value? : Nat → Nat → List Char → Option (Value × List Char)
  | 0, _, _ => none
  | fuel + 1, depth, chars =>
    match depth, chars with
    | _, '"' :: rest => (basicString? rest).map fun (s, after) => (.text (String.ofList s), after)
    | _, '\'' :: rest =>
      (literalString? rest).map fun (s, after) => (.text (String.ofList s), after)
    | 0, '[' :: _ => none
    | depth + 1, '[' :: rest =>
      (items? fuel depth rest).map fun (items, after) => (.array items, after)
    | 0, '\x7b' :: _ => none
    | depth + 1, '\x7b' :: rest => do
      match skipBlanks rest with
      | '\x7d' :: after => return (.table [], after)
      | inside =>
        let (entries, after) ← entries? fuel depth inside
        return (← ofAssignments? entries, after)
    | _, _ =>
      let word := chars.takeWhile isWordChar
      (word? word).map fun value => (value, chars.drop word.length)

/-- The items of an array, after the opening bracket or a comma, and its end. -/
def items? : Nat → Nat → List Char → Option (List Value × List Char)
  | 0, _, _ => none
  | fuel + 1, depth, chars =>
    match skipLines chars.length chars with
    | ']' :: after => some ([], after)
    | inside => do
      let (item, after) ← value? fuel depth inside
      match skipLines after.length after with
      | ',' :: rest => do
        let (more, last) ← items? fuel depth rest
        return (item :: more, last)
      | ']' :: rest => return ([item], rest)
      | _ => none

/-- The entries of a table in braces and its end; there is at least one. -/
def entries? : Nat → Nat → List Char → Option (List (List String × Value) × List Char)
  | 0, _, _ => none
  | fuel + 1, depth, chars => do
    let (keys, value, after) ← assignment? fuel depth chars
    match skipBlanks after with
    | ',' :: rest => do
      let (more, last) ← entries? fuel depth rest
      return ((keys, value) :: more, last)
    | '\x7d' :: rest => return ([(keys, value)], rest)
    | _ => none

/-- A key, an equals sign and a value. -/
def assignment? : Nat → Nat → List Char → Option (List String × Value × List Char)
  | 0, _, _ => none
  | fuel + 1, depth, chars => do
    let (keys, after) ← key? maxDepth chars
    match after with
    | '=' :: rest => do
      let (value, last) ← value? fuel depth (skipBlanks rest)
      return (keys, value, last)
    | _ => none

end

/-! ## Documents -/

/-- One statement, to the end of its line. -/
def statement? (chars : List Char) : Option (Statement × List Char) :=
  match chars with
  | '[' :: rest => do
    let (path, after) ← key? maxDepth rest
    match after with
    | ']' :: more => do
      let next ← restOfLine? more
      return (.header path, next)
    | _ => none
  | _ => do
    let (keys, value, after) ← assignment? (2 * chars.length + 2) maxDepth chars
    let next ← restOfLine? after
    return (.assignment keys value, next)

/-- At most so many statements, to the end of the text. -/
def statements? : Nat → List Char → Option (List Statement)
  | 0, _ => none
  | fuel + 1, chars =>
    match skipBlanks (skipLines chars.length chars) with
    | [] => some []
    | rest => do
      let (statement, after) ← statement? rest
      let more ← statements? fuel after
      return statement :: more

/-- The table that a text spells. A mark of the byte order may come first. -/
def parse? (text : String) : Option Value := do
  let chars :=
    match text.toList with
    | '\uFEFF' :: rest => rest
    | all => all
  let statements ← statements? (chars.length + 1) chars
  let entries ← build? statements [] []
  return .table (finishAll entries)

end ScopeMerge.Toml
