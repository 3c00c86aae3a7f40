import LineLedger.Text.Hex

set_option autoImplicit false

namespace LineLedger.Toml

inductive Style where
  | basic
  | literal
  | basicLines
  | literalLines
deriving DecidableEq, Repr

def isControl (c : Char) : Bool := c.toNat < 0x20 || c.toNat = 0x7F

def needsEscape (c : Char) : Bool := isControl c && c ≠ '\t' && c ≠ '\n'

def longestRun (mark : Char) (run : Nat) : List Char → Nat
  | [] => run
  | c :: rest =>
    if c = mark then longestRun mark (run + 1) rest else max run (longestRun mark 0 rest)

def style (text : List Char) : Style :=
  let quotes := longestRun '"' 0 text
  let apostrophes := longestRun '\'' 0 text
  let escapes := text.any needsEscape
  let backslash := text.contains '\\'
  let newline := text.contains '\n'
  if !escapes && !backslash && quotes = 0 && !newline then .basic
  else if !escapes && apostrophes = 0 && !newline then .literal
  else if !escapes && !backslash && quotes ≤ 2 then .basicLines
  else if !escapes && apostrophes ≤ 2 then .literalLines
  else if newline then .basicLines
  else .basic

def upperHex (n : Nat) : List Char := (Text.hexDigits 4 n).map Char.toUpper

def writeChar (overLines : Bool) (c : Char) : List Char :=
  match c with
  | '\x08' => ['\\', 'b']
  | '\t' => ['\\', 't']
  | '\n' => if overLines then ['\n'] else ['\\', 'n']
  | '\x0c' => ['\\', 'f']
  | '\r' => ['\\', 'r']
  | '\\' => ['\\', '\\']
  | c => if isControl c then '\\' :: 'u' :: upperHex c.toNat else [c]

-- A run of quotes is cut by an escape before it could end the text; `run` counts the quotes
-- written plainly just before.
def writeEscaped (overLines : Bool) (run : Nat) : List Char → List Char
  | [] => []
  | '"' :: rest =>
    if (if overLines then 2 else 0) < run + 1 then
      '\\' :: '"' :: writeEscaped overLines 0 rest
    else '"' :: writeEscaped overLines (run + 1) rest
  | c :: rest => writeChar overLines c ++ writeEscaped overLines 0 rest

def firstBreak (text : List Char) : List Char := if text.contains '\n' then ['\n'] else []

def writeText (text : List Char) : List Char :=
  match style text with
  | .basic => '"' :: (writeEscaped false 0 text ++ ['"'])
  | .literal => '\'' :: (text ++ ['\''])
  | .basicLines =>
    "\"\"\"".toList ++ firstBreak text ++ writeEscaped true 0 text ++ "\"\"\"".toList
  | .literalLines => "'''".toList ++ firstBreak text ++ text ++ "'''".toList

def isBareKey (key : List Char) : Bool :=
  !key.isEmpty && key.all fun c => c.isAlphanum || c = '_' || c = '-'

-- Keys stand on one line, so a line break in them is escaped.
def writeKey (key : List Char) : List Char :=
  let escapes := key.any fun c => isControl c && c ≠ '\t'
  if isBareKey key then key
  else if !escapes && !key.contains '\\' && !key.contains '"' then
    '"' :: (writeEscaped false 0 key ++ ['"'])
  else if !escapes && !key.contains '\'' then '\'' :: (key ++ ['\''])
  else '"' :: (writeEscaped false 0 key ++ ['"'])

def writeTexts (texts : List (List Char)) : List Char :=
  match texts with
  | [] => ['[', ']']
  | [text] => '[' :: (writeText text ++ [']'])
  | texts =>
    '[' :: (texts.flatMap (fun text => "\n    ".toList ++ writeText text ++ [',']) ++ ['\n', ']'])

def writeEntry (key value : List Char) : List Char :=
  writeKey key ++ " = ".toList ++ value ++ ['\n']

end LineLedger.Toml
