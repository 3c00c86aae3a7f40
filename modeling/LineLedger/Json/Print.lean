import LineLedger.Json.Basic

set_option autoImplicit false

namespace LineLedger.Json

def quote (spelling : List Char) : List Char := '"' :: (spelling ++ ['"'])

mutual

def compact : Json → List Char
  | .null => "null".toList
  | .bool true => "true".toList
  | .bool false => "false".toList
  | .number spelling => spelling
  | .string spelling => quote spelling
  | .array items => '[' :: compactItems items
  | .object members => '{' :: compactMembers members

def compactItems : List Json → List Char
  | [] => [']']
  | [v] => compact v ++ [']']
  | v :: rest => compact v ++ ',' :: compactItems rest

def compactMembers : List (List Char × Json) → List Char
  | [] => ['}']
  | [(key, v)] => quote key ++ ':' :: (compact v ++ ['}'])
  | (key, v) :: rest => quote key ++ ':' :: (compact v ++ ',' :: compactMembers rest)

end

def newLine (depth : Nat) : List Char := '\n' :: List.replicate (2 * depth) ' '

mutual

def layOut (depth : Nat) : Json → List Char
  | .null => "null".toList
  | .bool true => "true".toList
  | .bool false => "false".toList
  | .number spelling => spelling
  | .string spelling => quote spelling
  | .array [] => ['[', ']']
  | .array (v :: rest) =>
    '[' :: (newLine (depth + 1) ++ layOut (depth + 1) v ++ layOutItems depth rest)
  | .object [] => ['{', '}']
  | .object ((key, v) :: rest) =>
    '{' :: (newLine (depth + 1) ++ quote key ++ ':' :: ' ' :: layOut (depth + 1) v ++
      layOutMembers depth rest)

def layOutItems (depth : Nat) : List Json → List Char
  | [] => newLine depth ++ [']']
  | v :: rest =>
    ',' :: (newLine (depth + 1) ++ layOut (depth + 1) v ++ layOutItems depth rest)

def layOutMembers (depth : Nat) : List (List Char × Json) → List Char
  | [] => newLine depth ++ ['}']
  | (key, v) :: rest =>
    ',' :: (newLine (depth + 1) ++ quote key ++ ':' :: ' ' :: layOut (depth + 1) v ++
      layOutMembers depth rest)

end

def toCompact (v : Json) : String := String.ofList (compact v)

def toPretty (v : Json) : String := String.ofList (layOut 0 v)

end LineLedger.Json
