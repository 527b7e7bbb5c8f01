import ScopeMerge.Json.Token

/-!
# Reading a JSON text

The tokens of a text are read by a machine with a stack of unfinished arrays and objects. Every
token either finishes a value, which is then handed to the innermost container, or opens or
closes a container. There is no bound on the nesting.
-/

namespace ScopeMerge.Json

/-- An unfinished container; what it holds so far stands last first. -/
inductive Frame where
  | array (items : List Json)
  /-- An object in which the value of a key comes next. -/
  | object (members : List (Option String × Json)) (key : Option String)

/-- What may come next. -/
inductive Reading where
  | value (frames : List Frame)
  /-- The first item of an array, or its end. -/
  | firstItem (frames : List Frame)
  /-- The first key of an object, or its end. -/
  | firstKey (frames : List Frame)
  | key (members : List (Option String × Json)) (frames : List Frame)
  | colon (members : List (Option String × Json)) (key : Option String) (frames : List Frame)
  | afterItem (items : List Json) (frames : List Frame)
  | afterMember (members : List (Option String × Json)) (frames : List Frame)
  | finished (value : Json)

/-- Hands a finished value to the innermost container. -/
def deliver (value : Json) : List Frame → Reading
  | [] => .finished value
  | .array items :: frames => .afterItem (value :: items) frames
  | .object members key :: frames => .afterMember ((key, value) :: members) frames

/-- The members of an object, if every key is readable. -/
def readableMembers? : List (Option String × Json) → Option (List (String × Json))
  | [] => some []
  | (none, _) :: _ => none
  | (some key, value) :: rest => (readableMembers? rest).map ((key, value) :: ·)

/-- The object with some members. -/
def closedObject (members : List (Option String × Json)) : Json :=
  match readableMembers? members with
  | some readable => .object readable
  | none => .unreadable

/-- The value of a string. -/
def ofContent : Option String → Json
  | some content => .text content
  | none => .unreadable

/-- Reads the first token of a value. -/
def readValue? (token : Token) (frames : List Frame) : Option Reading :=
  match token with
  | .openObject => some (.firstKey frames)
  | .openArray => some (.firstItem frames)
  | .literal value => some (deliver value frames)
  | .number value => some (deliver (.number value) frames)
  | .string content => some (deliver (ofContent content) frames)
  | _ => none

/-- Reads one token. -/
def readToken? (token : Token) : Reading → Option Reading
  | .value frames => readValue? token frames
  | .firstItem frames =>
    match token with
    | .closeArray => some (deliver (.array []) frames)
    | _ => readValue? token (.array [] :: frames)
  | .firstKey frames =>
    match token with
    | .closeObject => some (deliver (.object []) frames)
    | .string key => some (.colon [] key frames)
    | _ => none
  | .key members frames =>
    match token with
    | .string key => some (.colon members key frames)
    | _ => none
  | .colon members key frames =>
    match token with
    | .colon => some (.value (.object members key :: frames))
    | _ => none
  | .afterItem items frames =>
    match token with
    | .comma => some (.value (.array items :: frames))
    | .closeArray => some (deliver (.array items.reverse) frames)
    | _ => none
  | .afterMember members frames =>
    match token with
    | .comma => some (.key members frames)
    | .closeObject => some (deliver (closedObject members.reverse) frames)
    | _ => none
  | .finished _ => none

/-- Reads tokens from the middle of a text. -/
def readFrom? : List Token → Reading → Option Reading
  | [], reading => some reading
  | token :: rest, reading =>
    match readToken? token reading with
    | none => none
    | some next => readFrom? rest next

/-- The value that tokens spell. -/
def ofTokens? (tokens : List Token) : Option Json :=
  match readFrom? tokens (.value []) with
  | some (.finished value) => some value
  | _ => none

/-- The value that a text spells. -/
def parse? (text : String) : Option Json :=
  (tokens? text.toList).bind ofTokens?

end ScopeMerge.Json
