import LineLedger.Text.Hex

set_option autoImplicit false

namespace LineLedger

inductive Json where
  | null
  | bool (value : Bool)
  | number (spelling : List Char)
  | string (spelling : List Char)
  | array (items : List Json)
  | object (members : List (List Char × Json))
deriving Repr

namespace Json

def isHighSurrogate (n : Nat) : Bool := 0xD800 ≤ n && n ≤ 0xDBFF

def isLowSurrogate (n : Nat) : Bool := 0xDC00 ≤ n && n ≤ 0xDFFF

def pairedCode (high low : Nat) : Nat := 0x10000 + (high - 0xD800) * 0x400 + (low - 0xDC00)

def shortEscape? (c : Char) : Option Char :=
  match c with
  | '"' => some '"'
  | '\\' => some '\\'
  | '/' => some '/'
  | 'b' => some '\x08'
  | 'f' => some '\x0c'
  | 'n' => some '\n'
  | 'r' => some '\r'
  | 't' => some '\t'
  | _ => none

-- What a spelling stands for; half of a surrogate pair stands for nothing.
def unescape : List Char → Option (List Char)
  | [] => some []
  | '\\' :: 'u' :: a :: b :: c :: d :: '\\' :: 'u' :: e :: f :: g :: h :: rest =>
    match Text.hexNumber? [a, b, c, d], Text.hexNumber? [e, f, g, h] with
    | some n, some m =>
      if isHighSurrogate n && isLowSurrogate m then
        (unescape rest).map (Char.ofNat (pairedCode n m) :: ·)
      else if isHighSurrogate n || isLowSurrogate n then none
      else (unescape ('\\' :: 'u' :: e :: f :: g :: h :: rest)).map (Char.ofNat n :: ·)
    | _, _ => none
  | '\\' :: 'u' :: a :: b :: c :: d :: rest =>
    match Text.hexNumber? [a, b, c, d] with
    | some n =>
      if isHighSurrogate n || isLowSurrogate n then none
      else (unescape rest).map (Char.ofNat n :: ·)
    | none => none
  | '\\' :: c :: rest =>
    match shortEscape? c with
    | some meant => (unescape rest).map (meant :: ·)
    | none => none
  | ['\\'] => none
  | c :: rest => (unescape rest).map (c :: ·)

def escapeChar (c : Char) : List Char :=
  match c with
  | '"' => ['\\', '"']
  | '\\' => ['\\', '\\']
  | '\x08' => ['\\', 'b']
  | '\x0c' => ['\\', 'f']
  | '\n' => ['\\', 'n']
  | '\r' => ['\\', 'r']
  | '\t' => ['\\', 't']
  | c => if c.toNat < 0x20 then '\\' :: 'u' :: Text.hexDigits 4 c.toNat else [c]

def escape (text : List Char) : List Char := text.flatMap escapeChar

def ofText (text : String) : Json := .string (escape text.toList)

def ofNat (n : Nat) : Json := .number (Nat.toDigits 10 n)

def ofOption {α : Type} (encode : α → Json) : Option α → Json
  | some a => encode a
  | none => .null

def ofMembers (members : List (String × Json)) : Json :=
  .object (members.map fun (key, value) => (escape key.toList, value))

def ofTexts (texts : List String) : Json := .array (texts.map ofText)

def numberBound : Nat := Nat.pow 2 64

def natural? (spelling : List Char) : Option Nat :=
  match spelling with
  | [] => none
  | _ =>
    if spelling.all Char.isDigit && (spelling = ['0'] || spelling.head? ≠ some '0') then
      let n := spelling.foldl (fun n c => 10 * n + (c.toNat - '0'.toNat)) 0
      if n < numberBound then some n else none
    else none

def nat? : Json → Option Nat
  | .number spelling => natural? spelling
  | _ => none

def text? : Json → Option String
  | .string spelling => (unescape spelling).map String.ofList
  | _ => none

def optional? {α : Type} (decode : Json → Option α) : Json → Option (Option α)
  | .null => some none
  | value => (decode value).map some

def texts? : Json → Option (List String)
  | .array items => items.mapM text?
  | _ => none

end Json

end LineLedger
