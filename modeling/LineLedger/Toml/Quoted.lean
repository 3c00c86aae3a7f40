import LineLedger.Text.Hex

set_option autoImplicit false

namespace LineLedger.Toml

def isPlain (c : Char) : Bool := c = '\t' || (0x20 ≤ c.toNat && c.toNat ≠ 0x7F)

def isSpace (c : Char) : Bool := c = ' ' || c = '\t'

def shortEscape? (c : Char) : Option Char :=
  match c with
  | 'b' => some '\x08'
  | 't' => some '\t'
  | 'n' => some '\n'
  | 'f' => some '\x0c'
  | 'r' => some '\r'
  | '"' => some '"'
  | '\\' => some '\\'
  | _ => none

def codeEscape? (digits : List Char) : Option Char := do
  let n ← Text.hexNumber? digits
  if n.isValidChar then some (Char.ofNat n) else none

abbrev Taken := Option (List Char × List Char)

def Taken.add (c : Char) (taken : Taken) : Taken := taken.map fun (text, rest) => (c :: text, rest)

def takeBasic : List Char → Taken
  | [] => none
  | '"' :: rest => some ([], rest)
  | '\\' :: 'u' :: a :: b :: c :: d :: rest =>
    (codeEscape? [a, b, c, d]).bind fun meant => Taken.add meant (takeBasic rest)
  | '\\' :: 'U' :: a :: b :: c :: d :: e :: f :: g :: h :: rest =>
    (codeEscape? [a, b, c, d, e, f, g, h]).bind fun meant => Taken.add meant (takeBasic rest)
  | '\\' :: c :: rest => (shortEscape? c).bind fun meant => Taken.add meant (takeBasic rest)
  | c :: rest => if isPlain c && c ≠ '\\' then Taken.add c (takeBasic rest) else none

def takeLiteral : List Char → Taken
  | [] => none
  | '\'' :: rest => some ([], rest)
  | c :: rest => if isPlain c then Taken.add c (takeLiteral rest) else none

-- Where in a text of several lines the reader stands: a backslash at the end of a line takes
-- away the blanks and line breaks after it.
inductive LineState where
  | inside
  | afterBackslash
  | joining
deriving DecidableEq, Repr

def takeBasicLines : LineState → List Char → Taken
  | _, [] => none
  | .afterBackslash, '\n' :: rest => takeBasicLines .joining rest
  | .afterBackslash, '\r' :: '\n' :: rest => takeBasicLines .joining rest
  | .afterBackslash, c :: rest => if isSpace c then takeBasicLines .afterBackslash rest else none
  | .joining, '\n' :: rest => takeBasicLines .joining rest
  | .joining, '\r' :: '\n' :: rest => takeBasicLines .joining rest
  | .joining, ' ' :: rest => takeBasicLines .joining rest
  | .joining, '\t' :: rest => takeBasicLines .joining rest
  | _, '"' :: '"' :: '"' :: '"' :: '"' :: rest => some (['"', '"'], rest)
  | _, '"' :: '"' :: '"' :: '"' :: rest => some (['"'], rest)
  | _, '"' :: '"' :: '"' :: rest => some ([], rest)
  | _, '\\' :: 'u' :: a :: b :: c :: d :: rest =>
    (codeEscape? [a, b, c, d]).bind fun meant => Taken.add meant (takeBasicLines .inside rest)
  | _, '\\' :: 'U' :: a :: b :: c :: d :: e :: f :: g :: h :: rest =>
    (codeEscape? [a, b, c, d, e, f, g, h]).bind fun meant =>
      Taken.add meant (takeBasicLines .inside rest)
  | _, '\\' :: c :: rest =>
    match shortEscape? c with
    | some meant => Taken.add meant (takeBasicLines .inside rest)
    | none =>
      if c = '\n' then takeBasicLines .joining rest
      else if isSpace c || c = '\r' then
        match c, rest with
        | '\r', '\n' :: rest => takeBasicLines .joining rest
        | '\r', _ => none
        | _, rest => takeBasicLines .afterBackslash rest
      else none
  | _, '\r' :: '\n' :: rest => Taken.add '\n' (takeBasicLines .inside rest)
  | _, c :: rest =>
    if c = '\n' || (isPlain c && c ≠ '\\') then Taken.add c (takeBasicLines .inside rest) else none

def takeLiteralLines : List Char → Taken
  | [] => none
  | '\'' :: '\'' :: '\'' :: '\'' :: '\'' :: rest => some (['\'', '\''], rest)
  | '\'' :: '\'' :: '\'' :: '\'' :: rest => some (['\''], rest)
  | '\'' :: '\'' :: '\'' :: rest => some ([], rest)
  | '\r' :: '\n' :: rest => Taken.add '\n' (takeLiteralLines rest)
  | c :: rest => if c = '\n' || isPlain c then Taken.add c (takeLiteralLines rest) else none

def skipFirstBreak : List Char → List Char
  | '\n' :: rest => rest
  | '\r' :: '\n' :: rest => rest
  | text => text

def takeQuoted : List Char → Taken
  | '"' :: '"' :: '"' :: rest => takeBasicLines .inside (skipFirstBreak rest)
  | '"' :: rest => takeBasic rest
  | '\'' :: '\'' :: '\'' :: rest => takeLiteralLines (skipFirstBreak rest)
  | '\'' :: rest => takeLiteral rest
  | _ => none

end LineLedger.Toml
