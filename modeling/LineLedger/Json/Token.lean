import LineLedger.Json.Basic

set_option autoImplicit false

namespace LineLedger.Json

inductive Token where
  | openArray
  | closeArray
  | openObject
  | closeObject
  | colon
  | comma
  | null
  | bool (value : Bool)
  | number (spelling : List Char)
  | string (spelling : List Char)
deriving DecidableEq, Repr

def isSpace (c : Char) : Bool := c = ' ' || c = '\t' || c = '\n' || c = '\r'

def isShortEscape (c : Char) : Bool := (shortEscape? c).isSome

def takeString : List Char → Option (List Char × List Char)
  | [] => none
  | '"' :: rest => some ([], rest)
  | '\\' :: 'u' :: a :: b :: c :: d :: rest =>
    if [a, b, c, d].all Text.isHexDigit then
      (takeString rest).map fun (s, after) => ('\\' :: 'u' :: a :: b :: c :: d :: s, after)
    else none
  | '\\' :: c :: rest =>
    if isShortEscape c then (takeString rest).map fun (s, after) => ('\\' :: c :: s, after)
    else none
  | c :: rest =>
    if c.toNat < 0x20 || c = '\\' then none
    else (takeString rest).map fun (s, after) => (c :: s, after)

theorem length_of_takeString {text s after : List Char} (found : takeString text = some (s, after)) :
    after.length < text.length := by
  fun_induction takeString text generalizing s after <;> simp_all <;> grind

def takeDigits (text : List Char) : List Char × List Char :=
  (text.takeWhile Char.isDigit, text.dropWhile Char.isDigit)

def takeWhole : List Char → Option (List Char × List Char)
  | '0' :: rest => some (['0'], rest)
  | text =>
    match takeDigits text with
    | ([], _) => none
    | found => some found

def takeFraction (text : List Char) : Option (List Char × List Char) :=
  match text with
  | '.' :: rest =>
    match takeDigits rest with
    | ([], _) => none
    | (digits, after) => some ('.' :: digits, after)
  | _ => some ([], text)

def takeExponent (text : List Char) : Option (List Char × List Char) :=
  let digitsAfter (lead rest : List Char) : Option (List Char × List Char) :=
    match takeDigits rest with
    | ([], _) => none
    | (digits, after) => some (lead ++ digits, after)
  match text with
  | e :: rest =>
    if e = 'e' || e = 'E' then
      match rest with
      | '+' :: rest => digitsAfter [e, '+'] rest
      | '-' :: rest => digitsAfter [e, '-'] rest
      | _ => digitsAfter [e] rest
    else some ([], text)
  | [] => some ([], text)

def takeNumber (text : List Char) : Option (List Char × List Char) := do
  let (minus, text) := match text with
    | '-' :: rest => (['-'], rest)
    | _ => ([], text)
  let (whole, text) ← takeWhole text
  let (fraction, text) ← takeFraction text
  let (exponent, text) ← takeExponent text
  some (minus ++ whole ++ fraction ++ exponent, text)

def tokens? (text : List Char) : Option (List Token) :=
  match text with
  | [] => some []
  | 't' :: 'r' :: 'u' :: 'e' :: rest => (tokens? rest).map (.bool true :: ·)
  | 'f' :: 'a' :: 'l' :: 's' :: 'e' :: rest => (tokens? rest).map (.bool false :: ·)
  | 'n' :: 'u' :: 'l' :: 'l' :: rest => (tokens? rest).map (.null :: ·)
  | c :: rest =>
    if isSpace c then tokens? rest
    else if c = '[' then (tokens? rest).map (.openArray :: ·)
    else if c = ']' then (tokens? rest).map (.closeArray :: ·)
    else if c = '{' then (tokens? rest).map (.openObject :: ·)
    else if c = '}' then (tokens? rest).map (.closeObject :: ·)
    else if c = ':' then (tokens? rest).map (.colon :: ·)
    else if c = ',' then (tokens? rest).map (.comma :: ·)
    else if c = '"' then
      match _found : takeString rest with
      | some (spelling, after) => (tokens? after).map (.string spelling :: ·)
      | none => none
    else
      match takeNumber (c :: rest) with
      | some (spelling, _) =>
        (tokens? (rest.drop (spelling.length - 1))).map (.number spelling :: ·)
      | none => none
termination_by text.length
decreasing_by
  all_goals simp only [List.length_cons, List.length_drop]
  all_goals try omega
  have := length_of_takeString _found
  omega

end LineLedger.Json
