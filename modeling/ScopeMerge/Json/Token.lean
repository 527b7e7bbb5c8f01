import ScopeMerge.Json

/-!
# The tokens of a JSON text

A text is cut into tokens by a machine that reads one character at a time: punctuation is a token
at once, while words, numbers and strings are collected until they end. The machine accepts
exactly the tokens of the standard. Words are the three literals; numbers have no leading zeros
and no bare point; strings hold no control characters and only the known escapes.
-/

namespace ScopeMerge.Json

/-- A token. -/
inductive Token where
  | openObject
  | closeObject
  | openArray
  | closeArray
  | colon
  | comma
  | literal (value : Json)
  | number (value : Number)
  /-- A string; without content if it names half of a surrogate pair. -/
  | string (content : Option String)
deriving Inhabited

/-! ## Numbers -/

/-- The value of a digit. -/
def digit? (c : Char) : Option Nat :=
  if '0' ≤ c ∧ c ≤ '9' then some (c.toNat - '0'.toNat) else none

def isDigit (c : Char) : Bool := (digit? c).isSome

/-- The number that decimal digits spell. -/
def ofDigits (digits : List Char) : Nat :=
  digits.foldl (fun n c => 10 * n + (c.toNat - '0'.toNat)) 0

/-- Whether a text is an exponent after its letter: digits, possibly after a sign. -/
def isExponent : List Char → Bool
  | '+' :: digits => !digits.isEmpty && digits.all isDigit
  | '-' :: digits => !digits.isEmpty && digits.all isDigit
  | digits => !digits.isEmpty && digits.all isDigit

/-- Whether a text is nothing or an exponent with its letter. -/
def isExponentPart : List Char → Bool
  | [] => true
  | 'e' :: rest => isExponent rest
  | 'E' :: rest => isExponent rest
  | _ => false

/-- Whether a text can follow the integer part of a number. -/
def isNumberTail : List Char → Bool
  | '.' :: rest => !(rest.takeWhile isDigit).isEmpty && isExponentPart (rest.dropWhile isDigit)
  | rest => isExponentPart rest

/-- The number without a sign that a text spells. -/
def unsigned? (negative : Bool) (chars : List Char) : Option Number :=
  let digits := chars.takeWhile isDigit
  let tail := chars.dropWhile isDigit
  if digits.isEmpty || (digits.length > 1 && digits.head? == some '0') || !isNumberTail tail then
    none
  else some { negative, whole := ofDigits digits, tail := String.ofList tail }

/-- The number that a text spells. -/
def Number.ofChars? : List Char → Option Number
  | '-' :: rest => unsigned? true rest
  | chars => unsigned? false chars

/-- The characters that can be part of a number. -/
def isNumberChar (c : Char) : Bool :=
  isDigit c || c == '-' || c == '+' || c == '.' || c == 'e' || c == 'E'

/-! ## Strings -/

/-- A string being collected. -/
structure Collected where
  /-- The characters so far, the last one first. -/
  chars : List Char := []
  /-- The first half of a surrogate pair whose second half has to come next. -/
  half : Option Nat := none
  /-- Whether half of a pair stood alone. -/
  broken : Bool := false
deriving Inhabited

namespace Collected

/-- Notes that no second half came. -/
def settle (s : Collected) : Collected :=
  { s with half := none, broken := s.broken || s.half.isSome }

/-- Adds a character. -/
def push (s : Collected) (c : Char) : Collected :=
  let settled := s.settle
  { settled with chars := c :: settled.chars }

/-- Adds the code unit of a numeric escape. -/
def pushUnit (s : Collected) (unit : Nat) : Collected :=
  if 0xdc00 ≤ unit ∧ unit ≤ 0xdfff then
    match s.half with
    | some high =>
      let code := 0x10000 + (high - 0xd800) * 0x400 + (unit - 0xdc00)
      { s with chars := Char.ofNat code :: s.chars, half := none }
    | none => { s with broken := true }
  else if 0xd800 ≤ unit ∧ unit ≤ 0xdbff then { s.settle with half := some unit }
  else s.push (Char.ofNat unit)

/-- The finished string. -/
def token (s : Collected) : Token :=
  let settled := s.settle
  .string (if settled.broken then none else some (String.ofList settled.chars.reverse))

end Collected

/-- The character that a one-letter escape stands for. -/
def escaped? : Char → Option Char
  | '"' => some '"'
  | '\\' => some '\\'
  | '/' => some '/'
  | 'b' => some '\x08'
  | 'f' => some '\x0c'
  | 'n' => some '\n'
  | 'r' => some '\r'
  | 't' => some '\t'
  | _ => none

/-- The value of a hexadecimal digit. -/
def hexDigit? (c : Char) : Option Nat :=
  if '0' ≤ c ∧ c ≤ '9' then some (c.toNat - '0'.toNat)
  else if 'a' ≤ c ∧ c ≤ 'f' then some (c.toNat - 'a'.toNat + 10)
  else if 'A' ≤ c ∧ c ≤ 'F' then some (c.toNat - 'A'.toNat + 10)
  else none

/-! ## The machine -/

/-- What the machine is in the middle of. -/
inductive Lexing where
  | between
  /-- A word; its letters so far, the last one first. -/
  | word (letters : List Char)
  /-- A number; its characters so far, the last one first. -/
  | number (chars : List Char)
  | string (s : Collected)
  | escape (s : Collected)
  /-- A numeric escape with so many digits to come and the value so far. -/
  | unit (s : Collected) (missing : Nat) (value : Nat)
deriving Inhabited

/-- The literal that a word spells. -/
def literal? (letters : List Char) : Option Token :=
  if letters = "null".toList then some (.literal .null)
  else if letters = "true".toList then some (.literal (.bool true))
  else if letters = "false".toList then some (.literal (.bool false))
  else none

def isSpace (c : Char) : Bool :=
  c == ' ' || c == '\t' || c == '\n' || c == '\r'

/-- Reads a character that no token is waiting for; the tokens are the finished ones, the last
one first. -/
def begin? (tokens : List Token) (c : Char) : Option (List Token × Lexing) :=
  if isSpace c then some (tokens, .between)
  else if c = '\x7b' then some (.openObject :: tokens, .between)
  else if c = '\x7d' then some (.closeObject :: tokens, .between)
  else if c = '[' then some (.openArray :: tokens, .between)
  else if c = ']' then some (.closeArray :: tokens, .between)
  else if c = ':' then some (.colon :: tokens, .between)
  else if c = ',' then some (.comma :: tokens, .between)
  else if c = '"' then some (tokens, .string {})
  else if isDigit c || c == '-' then some (tokens, .number [c])
  else if c.isLower then some (tokens, .word [c])
  else none

/-- The token that ends where the text ends or another token begins. -/
def ended? (tokens : List Token) : Lexing → Option (List Token)
  | .between => some tokens
  | .word letters => (literal? letters.reverse).map (· :: tokens)
  | .number chars => (Number.ofChars? chars.reverse).map fun n => .number n :: tokens
  | _ => none

/-- Reads one character. -/
def lexChar? (tokens : List Token) (c : Char) : Lexing → Option (List Token × Lexing)
  | .between => begin? tokens c
  | .word letters =>
    if c.isLower then some (tokens, .word (c :: letters))
    else (ended? tokens (.word letters)).bind (begin? · c)
  | .number chars =>
    if isNumberChar c then some (tokens, .number (c :: chars))
    else (ended? tokens (.number chars)).bind (begin? · c)
  | .string s =>
    if c = '"' then some (s.token :: tokens, .between)
    else if c = '\\' then some (tokens, .escape s)
    else if c.toNat < 0x20 then none
    else some (tokens, .string (s.push c))
  | .escape s =>
    if c = 'u' then some (tokens, .unit s 3 0)
    else (escaped? c).map fun e => (tokens, .string (s.push e))
  | .unit s missing value =>
    (hexDigit? c).map fun d =>
      match missing with
      | 0 => (tokens, .string (s.pushUnit (16 * value + d)))
      | fewer + 1 => (tokens, .unit s fewer (16 * value + d))

/-- Reads all characters of a text from the middle of it. -/
def lexFrom? : List Char → List Token → Lexing → Option (List Token)
  | [], tokens, lexing => ended? tokens lexing
  | c :: rest, tokens, lexing =>
    match lexChar? tokens c lexing with
    | none => none
    | some (more, next) => lexFrom? rest more next

/-- The tokens of a text, if it consists of tokens. -/
def tokens? (chars : List Char) : Option (List Token) :=
  (lexFrom? chars [] .between).map List.reverse

end ScopeMerge.Json
