import LineLedger.Python.Quoted
import LineLedger.Python.Tree
import LineLedger.Text.Word

set_option autoImplicit false

namespace LineLedger.Python

inductive Lexeme where
  | name (text : String)
  | number
  | quoted
  | sign (text : String)
  | illegal
deriving DecidableEq, Repr

structure Token where
  lexeme : Lexeme
  start : Position
  stop : Position
  indent : Option Nat
deriving DecidableEq, Repr

def Position.next (p : Position) (c : Char) : Position :=
  if c = '\n' then ⟨p.row + 1, 0⟩ else ⟨p.row, p.column + 1⟩

def Position.advance (p : Position) (text : List Char) : Position := text.foldl Position.next p

-- Characters that names may start with though they are no letters, and others that they may go on
-- with.
def namingRanges : List (Nat × Nat) := [(0x1885, 0x1886), (0x2118, 0x2118), (0x212E, 0x212E)]

def furtherRanges : List (Nat × Nat) := [
  (0xB7, 0xB7), (0x387, 0x387), (0x1369, 0x1371), (0x19DA, 0x19DA)]

def isNameStart (c : Char) : Bool :=
  Text.isLetter c || c = '_' || Text.inRanges c.toNat namingRanges

def isNameChar (c : Char) : Bool :=
  isNameStart c || Text.isWordChar c || Text.inRanges c.toNat furtherRanges

def isQuotePrefix (c : Char) : Bool := c.toLower ∈ ['r', 'u', 'b', 'f']

def signs : List String := [
  "**=", "//=", ">>=", "<<=", "...",
  "**", "//", ">>", "<<", "<=", ">=", "==", "!=", "<>", "->", ":=",
  "+=", "-=", "*=", "/=", "%=", "@=", "&=", "|=", "^=",
  "+", "-", "*", "/", "%", "@", "&", "|", "^", "~", "<", ">",
  "(", ")", "[", "]", "\x7b", "\x7d", ",", ":", ".", ";", "="]

def isDigitChar (c : Char) : Bool := c.isDigit || c = '_'

def isRadixLetter (c : Char) : Bool := c ∈ ['x', 'X', 'o', 'O', 'b', 'B']

def isNumberSuffix (c : Char) : Bool := c ∈ ['j', 'J', 'l', 'L']

def exponentLength : List Char → Nat
  | e :: s :: d :: rest =>
    if e = 'e' || e = 'E' then
      if (s = '+' || s = '-') && d.isDigit then 3 + (rest.takeWhile isDigitChar).length
      else if s.isDigit then 2 + ((d :: rest).takeWhile isDigitChar).length
      else 0
    else 0
  | [e, s] => if (e = 'e' || e = 'E') && s.isDigit then 2 else 0
  | _ => 0

def suffixLength (text : List Char) : Nat :=
  match text with
  | c :: _ => if isNumberSuffix c then 1 else 0
  | [] => 0

def decimalLength (text : List Char) : Nat :=
  let whole := (text.takeWhile isDigitChar).length
  let fraction :=
    match text.drop whole with
    | '.' :: rest => 1 + (rest.takeWhile isDigitChar).length
    | _ => 0
  let exponent := exponentLength (text.drop (whole + fraction))
  whole + fraction + exponent + suffixLength (text.drop (whole + fraction + exponent))

def numberLength : List Char → Nat
  | '0' :: r :: rest =>
    if isRadixLetter r then 2 + (rest.takeWhile fun c => c.isAlphanum || c = '_').length
    else decimalLength ('0' :: r :: rest)
  | text => decimalLength text

def lexeme (text : List Char) : Lexeme × Nat :=
  match text with
  | [] => (.illegal, 0)
  | c :: rest =>
    if isNameStart c then
      let name := text.takeWhile isNameChar
      let quotes := text.dropWhile isNameChar
      let startsQuoted := quotes.head? = some '"' || quotes.head? = some '\''
      if name.all isQuotePrefix && startsQuoted then
        match quotedText? (name.any isFormatLetter) quotes with
        | some length => (.quoted, name.length + length)
        | none => (.illegal, name.length + 1)
      else (.name (String.ofList name), name.length)
    else if c.isDigit || (c = '.' && (rest.head?.any Char.isDigit)) then
      (.number, numberLength text)
    else if c = '"' || c = '\'' then
      match quotedText? false text with
      | some length => (.quoted, length)
      | none => (.illegal, 1)
    else
      match signs.find? fun sign => sign.toList.isPrefixOf text with
      | some sign => (.sign sign, sign.length)
      | none => (.illegal, 1)

-- Blanks that stand between tokens without a meaning for indentation.
def isFiller (c : Char) : Bool :=
  c.toNat = 0xB || c.toNat = 0xFEFF || c.toNat = 0x2060 || c.toNat = 0x200B

def lexFrom (place : Position) (width : Option Nat) (text : List Char) : List Token :=
  match text with
  | [] => []
  | c :: rest =>
    let after := place.next c
    if c = '\n' then lexFrom after (some 0) rest
    else if c = ' ' then lexFrom after (width.map (· + 1)) rest
    else if c = '\t' then lexFrom after (width.map (· + 8)) rest
    else if c = '\r' || c.toNat = 0xC then lexFrom after (width.map fun _ => 0) rest
    else if isFiller c then lexFrom after width rest
    else if c = '#' then
      let comment := rest.takeWhile (· ≠ '\n')
      lexFrom (after.advance comment) width (rest.drop comment.length)
    else if c = '\\' && (rest.head? = some '\n' || rest.isEmpty) then
      lexFrom ⟨place.row + 1, 0⟩ width (rest.drop 1)
    else if c = '\\' && rest.take 2 = ['\r', '\n'] then
      lexFrom ⟨place.row + 1, 0⟩ width (rest.drop 2)
    else
      let (found, length) := lexeme (c :: rest)
      let stop := place.advance (c :: rest.take (length - 1))
      ⟨found, place, stop, width⟩ :: lexFrom stop none (rest.drop (length - 1))
termination_by text.length
decreasing_by all_goals (simp only [List.length_cons, List.length_drop]; omega)

def tokens (source : List Char) : List Token := lexFrom ⟨0, 0⟩ (some 0) source

end LineLedger.Python
