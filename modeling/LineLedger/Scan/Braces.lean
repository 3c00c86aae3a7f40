import LineLedger.Scan.Basic
import LineLedger.Scan.Role

set_option autoImplicit false

namespace LineLedger.Braces

inductive Dialect where
  | c
  | cpp
deriving DecidableEq, Repr

structure State where
  nesting : Nesting
  inAssignment : Bool
deriving DecidableEq, Repr

def State.start : State := ⟨.empty, false⟩

-- An equals sign that is not part of a comparison; `before` is the character to the left.
def assignsAfter (before : Char) : List Char → Bool
  | [] => false
  | c :: rest =>
    (c = '=' && rest.head? ≠ some '=' &&
      !(before = '=' || before = '!' || before = '<' || before = '>')) ||
    assignsAfter c rest

def hasAssignment (line : List Char) : Bool := assignsAfter ' ' line

def accessWords : List String := ["public", "protected", "private"]

def isAccessSpecifier (line : List Char) : Bool :=
  accessWords.any fun word =>
    if word.toList.isPrefixOf line then
      match Text.trimStart (line.drop word.length) with
      | [':'] => true
      | ':' :: c :: _ => c ≠ ':'
      | _ => false
    else false

def classify (dialect : Dialect) (state : State) (line : List Char) : LeveledRole × State :=
  let terminated := line.contains ';'
  let assigns := hasAssignment line
  let level := state.nesting.level
  if state.inAssignment then
    if terminated then (⟨.assignmentEnd, level⟩, { state with inAssignment := false })
    else (⟨.assignmentPart, level⟩, state)
  else if terminated && !assigns then (⟨.declaration, level⟩, state)
  else if line.contains '{' then
    let nesting := state.nesting.push "block"
    (⟨.blockStart, nesting.level⟩, { state with nesting })
  else if line.contains '}' then
    let nesting := state.nesting.pop
    (⟨.blockEnd, nesting.level⟩, { state with nesting })
  else if assigns && terminated then (⟨.assignment, level⟩, state)
  else if assigns then (⟨.assignmentStart, level⟩, { state with inAssignment := true })
  else if dialect = .cpp && isAccessSpecifier line then (⟨.access, level⟩, state)
  else (⟨.unknown, level⟩, state)

def scanner (dialect : Dialect) : Scanner State where
  start := .start
  step state line :=
    let (tag, next) := classify dialect state (Text.trim line)
    ([some tag.text], next)

end LineLedger.Braces
