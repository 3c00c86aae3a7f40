import LineLedger.Json.Token

set_option autoImplicit false

namespace LineLedger.Json

-- A container under construction; its parts are kept last first.
inductive Partial where
  | array (items : List Json)
  | object (members : List (List Char × Json))
  | member (members : List (List Char × Json)) (key : List Char)

inductive Reading where
  | value (stack : List Partial)
  | valueOrClose (stack : List Partial)
  | keyOrClose (stack : List Partial)
  | key (members : List (List Char × Json)) (stack : List Partial)
  | colon (members : List (List Char × Json)) (key : List Char) (stack : List Partial)
  | commaOrClose (top : Partial) (stack : List Partial)
  | done (result : Json)

namespace Reading

def place (v : Json) : List Partial → Reading
  | [] => .done v
  | .array items :: stack => .commaOrClose (.array (v :: items)) stack
  | .member members name :: stack => .commaOrClose (.object ((name, v) :: members)) stack
  | .object members :: stack => .commaOrClose (.object members) stack

def readValue (stack : List Partial) : Token → Option Reading
  | .null => some (place .null stack)
  | .bool b => some (place (.bool b) stack)
  | .number spelling => some (place (.number spelling) stack)
  | .string spelling => some (place (.string spelling) stack)
  | .openArray => some (.valueOrClose stack)
  | .openObject => some (.keyOrClose stack)
  | _ => none

def step : Reading → Token → Option Reading
  | .value stack, token => readValue stack token
  | .valueOrClose stack, .closeArray => some (place (.array []) stack)
  | .valueOrClose stack, token => readValue (.array [] :: stack) token
  | .keyOrClose stack, .closeObject => some (place (.object []) stack)
  | .keyOrClose stack, .string name => some (.colon [] name stack)
  | .key members stack, .string name => some (.colon members name stack)
  | .colon members name stack, .colon => some (.value (.member members name :: stack))
  | .commaOrClose (.array items) stack, .comma => some (.value (.array items :: stack))
  | .commaOrClose (.array items) stack, .closeArray => some (place (.array items.reverse) stack)
  | .commaOrClose (.object members) stack, .comma => some (.key members stack)
  | .commaOrClose (.object members) stack, .closeObject =>
    some (place (.object members.reverse) stack)
  | _, _ => none

end Reading

def ofTokens? (tokens : List Token) : Option Json :=
  match tokens.foldlM Reading.step (.value []) with
  | some (.done v) => some v
  | _ => none

def read? (text : String) : Option Json := (tokens? text.toList).bind ofTokens?

end LineLedger.Json
