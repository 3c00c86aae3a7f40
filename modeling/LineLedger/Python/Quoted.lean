set_option autoImplicit false

namespace LineLedger.Python

-- What is open around a character: a quoted text, the code of a replacement field with the
-- brackets open in it, or the format after such code.
inductive Quoting where
  | quoted (quote : Char) (triple formatted : Bool)
  | field (brackets : Nat) (formatted : Bool)
  | format
deriving DecidableEq, Repr

def isFormatLetter (c : Char) : Bool := c = 'f' || c = 'F'

-- The number of characters up to the end of the outermost quoted text, on top of `count`. A
-- backslash takes away the meaning of what follows it, unless that opens a field.
def quotedLength : List Quoting → Nat → List Char → Option Nat
  | [], count, _ => some count
  | _ :: _, _, [] => none
  | .quoted q triple true :: outer, count, '\\' :: '{' :: '{' :: rest =>
    quotedLength (.quoted q triple true :: outer) (count + 3) rest
  | .quoted q triple true :: outer, count, '\\' :: '{' :: rest =>
    quotedLength (.field 0 false :: .quoted q triple true :: outer) (count + 2) rest
  | .quoted q triple formatted :: outer, count, '\\' :: '\r' :: '\n' :: rest =>
    quotedLength (.quoted q triple formatted :: outer) (count + 3) rest
  | .quoted q triple formatted :: outer, count, '\\' :: _ :: rest =>
    quotedLength (.quoted q triple formatted :: outer) (count + 2) rest
  | .quoted q true formatted :: outer, count, a :: b :: c :: rest =>
    if a = q && b = q && c = q then quotedLength outer (count + 3) rest
    else if formatted && a = '{' && b = '{' then
      quotedLength (.quoted q true formatted :: outer) (count + 2) (c :: rest)
    else if formatted && a = '{' then
      quotedLength (.field 0 false :: .quoted q true formatted :: outer) (count + 1)
        (b :: c :: rest)
    else quotedLength (.quoted q true formatted :: outer) (count + 1) (b :: c :: rest)
  | .quoted _ true _ :: _, _, [_, _] => none
  | .quoted _ true _ :: _, _, [_] => none
  | .quoted q false formatted :: outer, count, c :: rest =>
    if c = q then quotedLength outer (count + 1) rest
    else if c = '\n' then none
    else if formatted && c = '{' then
      match rest with
      | '{' :: rest => quotedLength (.quoted q false formatted :: outer) (count + 2) rest
      | rest =>
        quotedLength (.field 0 false :: .quoted q false formatted :: outer) (count + 1) rest
    else quotedLength (.quoted q false formatted :: outer) (count + 1) rest
  | .field brackets formatted :: outer, count, c :: rest =>
    if c = '"' || c = '\'' then
      match rest with
      | a :: b :: rest =>
        if a = c && b = c then
          quotedLength (.quoted c true formatted :: .field brackets false :: outer) (count + 3) rest
        else
          quotedLength (.quoted c false formatted :: .field brackets false :: outer) (count + 1)
            (a :: b :: rest)
      | rest =>
        quotedLength (.quoted c false formatted :: .field brackets false :: outer) (count + 1) rest
    else if c = '(' || c = '[' || c = '{' then
      quotedLength (.field (brackets + 1) false :: outer) (count + 1) rest
    else if c = '}' && brackets = 0 then quotedLength outer (count + 1) rest
    else if c = ')' || c = ']' || c = '}' then
      quotedLength (.field (brackets - 1) false :: outer) (count + 1) rest
    else if c = ':' && brackets = 0 then quotedLength (.format :: outer) (count + 1) rest
    else quotedLength (.field brackets (isFormatLetter c) :: outer) (count + 1) rest
  | .format :: outer, count, c :: rest =>
    if c = '}' then quotedLength outer (count + 1) rest
    else if c = '{' then quotedLength (.field 0 false :: .format :: outer) (count + 1) rest
    else quotedLength (.format :: outer) (count + 1) rest

def quotedText? (formatted : Bool) : List Char → Option Nat
  | a :: b :: c :: rest =>
    if a = b && b = c then quotedLength [.quoted a true formatted] 3 rest
    else quotedLength [.quoted a false formatted] 1 (b :: c :: rest)
  | a :: rest => quotedLength [.quoted a false formatted] 1 rest
  | [] => none

end LineLedger.Python
