import LineLedger.Toml.Item
import LineLedger.Toml.Quoted
import LineLedger.Toml.Scalar

set_option autoImplicit false

namespace LineLedger.Toml

def skipSpace (text : List Char) : List Char := text.dropWhile isSpace

def skipComment : List Char → Option (List Char)
  | '#' :: rest =>
    match rest.dropWhile isPlain with
    | [] => some []
    | '\n' :: after => some ('\n' :: after)
    | '\r' :: '\n' :: after => some ('\r' :: '\n' :: after)
    | _ => none
  | text => some text

def endLine (text : List Char) : Option (List Char) :=
  match skipComment (skipSpace text) with
  | some [] => some []
  | some ('\n' :: rest) => some rest
  | some ('\r' :: '\n' :: rest) => some rest
  | _ => none

def skipLines (inComment : Bool) : List Char → Option (List Char)
  | [] => some []
  | '\r' :: '\n' :: rest => skipLines false rest
  | c :: rest =>
    if c = '\n' then skipLines false rest
    else if inComment then if isPlain c then skipLines true rest else none
    else if isSpace c then skipLines false rest
    else if c = '#' then skipLines true rest
    else some (c :: rest)

def isBareKeyChar (c : Char) : Bool := c.isAlphanum || c = '_' || c = '-'

def takeKey : List Char → Option (Key × List Char)
  | '"' :: rest => takeBasic rest
  | '\'' :: rest => takeLiteral rest
  | text =>
    match text.takeWhile isBareKeyChar with
    | [] => none
    | key => some (key, text.dropWhile isBareKeyChar)

-- Keys have fewer parts than this, and values fewer levels.
def limit : Nat := 80

def takeKeys : Nat → List Char → Option (List Key × List Char)
  | 0, _ => none
  | parts + 1, text => do
    let (key, rest) ← takeKey (skipSpace text)
    match skipSpace rest with
    | '.' :: rest =>
      let (keys, rest) ← takeKeys parts rest
      some (key :: keys, rest)
    | rest => some ([key], rest)

def splitLast (keys : List Key) : Option (List Key × Key) :=
  keys.getLast?.map fun last => (keys.dropLast, last)

def isScalarChar (c : Char) : Bool :=
  c.isAlphanum || c = '_' || c = '+' || c = '-' || c = '.' || c = ':'

-- The spelling of a scalar; a blank may stand between a date and a time.
def takeScalar (text : List Char) : List Char × List Char :=
  let first := text.takeWhile isScalarChar
  match text.drop first.length with
  | ' ' :: a :: rest =>
    if isDate first && a.isDigit then
      let second := (a :: rest).takeWhile isScalarChar
      (first ++ ' ' :: second, (a :: rest).drop second.length)
    else (first, ' ' :: a :: rest)
  | rest => (first, rest)

def scalar? (spelling : List Char) : Option Item :=
  if spelling = "true".toList || spelling = "false".toList then some .scalar
  else if isInteger spelling || isFloat spelling then some .scalar
  else if isMoment spelling then some (.moment spelling)
  else none

mutual

-- A value and what follows it. Every call consumes something or lowers the depth, so a depth and a
-- number of `steps` as large as the text suffice.
def takeValue (steps depth : Nat) (text : List Char) : Option (Item × List Char) :=
  match steps with
  | 0 => none
  | steps + 1 =>
    match text with
    | '"' :: _ => (takeQuoted text).map fun (s, rest) => (.text s, rest)
    | '\'' :: _ => (takeQuoted text).map fun (s, rest) => (.text s, rest)
    | '[' :: rest =>
      match depth with
      | 0 => none
      | depth + 1 => (takeItems steps depth rest).map fun (items, rest) => (.array items, rest)
    | '{' :: rest =>
      match depth with
      | 0 => none
      | depth + 1 =>
        match skipSpace rest with
        | '}' :: rest => some (.inline [], rest)
        | rest =>
          (takeMembers steps depth .emptyTable rest).map fun (table, rest) =>
            (.inline table.entries, rest)
    | _ =>
      let (spelling, rest) := takeScalar text
      (scalar? spelling).map fun item => (item, rest)
termination_by (steps, 0)

def takeItems (steps depth : Nat) (text : List Char) : Option (List Item × List Char) :=
  match steps with
  | 0 => none
  | steps + 1 =>
    match skipLines false text with
    | some (']' :: rest) => some ([], rest)
    | some text => do
      let (item, rest) ← takeValue steps depth text
      match ← skipLines false rest with
      | ',' :: rest =>
        let (items, rest) ← takeItems steps depth rest
        some (item :: items, rest)
      | ']' :: rest => some ([item], rest)
      | _ => none
    | none => none
termination_by (steps, 0)

def takeMembers (steps depth : Nat) (table : Item) (text : List Char) :
    Option (Item × List Char) :=
  match steps with
  | 0 => none
  | steps + 1 =>
    match takeKeys (limit - 1) text with
    | some (keys, '=' :: rest) => do
      let (path, key) ← splitLast keys
      let (value, rest) ← takeValue steps depth (skipSpace rest)
      let table ← Item.addValue path key value table
      match skipSpace rest with
      | ',' :: rest => takeMembers steps depth table rest
      | '}' :: rest => some (table, rest)
      | _ => none
    | _ => none
termination_by (steps, 0)

end

structure Document where
  root : Item
  header : List Key

def Document.empty : Document := ⟨.emptyTable, []⟩

def Document.addValue (doc : Document) (keys : List Key) (value : Item) : Option Document := do
  let (path, key) ← splitLast keys
  let root ← doc.root.update false (Item.addValue path key value) doc.header
  some { doc with root }

def Document.addHeader (doc : Document) (isArray : Bool) (keys : List Key) : Option Document := do
  let (path, key) ← splitLast keys
  let root ← if isArray then doc.root.addToTables path key else doc.root.addTable path key
  some ⟨root, keys⟩

def takeLine (doc : Document) (text : List Char) : Option (Document × List Char) :=
  match text with
  | '[' :: '[' :: rest => do
    match ← takeKeys (limit - 1) rest with
    | (keys, ']' :: ']' :: rest) =>
      let doc ← doc.addHeader true keys
      some (doc, ← endLine rest)
    | _ => none
  | '[' :: rest => do
    match ← takeKeys (limit - 1) rest with
    | (keys, ']' :: rest) =>
      let doc ← doc.addHeader false keys
      some (doc, ← endLine rest)
    | _ => none
  | text => do
    match ← takeKeys (limit - 1) text with
    | (keys, '=' :: rest) =>
      let (value, rest) ← takeValue (rest.length + 1) (limit - 1) (skipSpace rest)
      let doc ← doc.addValue keys value
      some (doc, ← endLine rest)
    | _ => none

def readLines : Nat → Document → List Char → Option Document
  | 0, _, _ => none
  | steps + 1, doc, text =>
    match skipLines false text with
    | none => none
    | some [] => some doc
    | some text => do
      let (doc, rest) ← takeLine doc text
      readLines steps doc rest

def skipMark : List Char → List Char
  | '\uFEFF' :: rest => rest
  | text => text

def read? (text : List Char) : Option (List (Key × Item)) :=
  (readLines (text.length + 1) .empty (skipMark text)).map fun doc => doc.root.entries

end LineLedger.Toml
