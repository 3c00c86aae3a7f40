import LineLedger.Scan.Basic
import LineLedger.Scan.Role
import LineLedger.Text.Lowercase
import LineLedger.Text.Word

set_option autoImplicit false

namespace LineLedger.Pascal

structure Comments where
  brace : Bool
  paren : Bool
deriving DecidableEq, Repr

def Comments.none : Comments := ⟨false, false⟩

-- The code on a line, followed by a blank, and the comments that are open after it. Every
-- apostrophe starts or ends quoted text.
def strip : Comments → Bool → List Char → List Char × Comments
  | comments, _, [] => ([' '], comments)
  | ⟨true, paren⟩, quoted, c :: rest => strip ⟨c ≠ '}', paren⟩ quoted rest
  | ⟨false, true⟩, quoted, '*' :: ')' :: rest => strip ⟨false, false⟩ quoted rest
  | ⟨false, true⟩, quoted, _ :: rest => strip ⟨false, true⟩ quoted rest
  | ⟨false, false⟩, quoted, '\'' :: rest => strip ⟨false, false⟩ (!quoted) rest
  | ⟨false, false⟩, true, _ :: rest => strip ⟨false, false⟩ true rest
  | ⟨false, false⟩, false, '{' :: rest => strip ⟨true, false⟩ false rest
  | ⟨false, false⟩, false, '(' :: '*' :: rest => strip ⟨false, true⟩ false rest
  | ⟨false, false⟩, false, '/' :: '/' :: _ => ([' '], ⟨false, false⟩)
  | ⟨false, false⟩, false, c :: rest =>
    let (code, comments) := strip ⟨false, false⟩ false rest
    (c :: code, comments)

theorem strip_nil (comments : Comments) (quoted : Bool) :
    strip comments quoted [] = ([' '], comments) := by
  rw [strip]

def openers : List String := ["begin", "record", "case", "try", "repeat", "asm"]

def closers : List String := ["end", "until"]

def words (code : List Char) : List String :=
  (Text.codeWords code).map fun word => String.ofList (Text.lower word)

structure State where
  nesting : Nesting
  comments : Comments
  inAssignment : Bool
deriving DecidableEq, Repr

def State.start : State := ⟨.empty, .none, false⟩

def wordEffect (nesting : Nesting) (word : String) : Nesting × Option Role :=
  if openers.contains word then (nesting.push word, some .blockStart)
  else if closers.contains word then (nesting.pop, some .blockEnd)
  else (nesting, none)

-- The last word that opens or closes a block decides the role.
def wordsEffect (nesting : Nesting) (role : Option Role) : List String → Nesting × Option Role
  | [] => (nesting, role)
  | word :: rest =>
    let (nesting, found) := wordEffect nesting word
    wordsEffect nesting (found.or role) rest

def hasBecomes : List Char → Bool
  | [] => false
  | c :: rest => (c = ':' && rest.head? = some '=') || hasBecomes rest

def classify (state : State) (code : List Char) : LeveledRole × State :=
  let terminated := code.contains ';'
  let assigns := hasBecomes code
  let level := state.nesting.level
  if state.inAssignment then
    if terminated then (⟨.assignmentEnd, level⟩, { state with inAssignment := false })
    else (⟨.assignmentPart, level⟩, state)
  else
    match wordsEffect state.nesting none (words code) with
    | (nesting, some role) => (⟨role, nesting.level⟩, { state with nesting })
    | (nesting, none) =>
      let state := { state with nesting }
      if assigns && terminated then (⟨.assignment, level⟩, state)
      else if assigns then (⟨.assignmentStart, level⟩, { state with inAssignment := true })
      else if terminated then (⟨.declaration, level⟩, state)
      else (⟨.unknown, level⟩, state)

def step (state : State) (line : List Char) : LeveledRole × State :=
  let (code, comments) := strip state.comments false line
  classify { state with comments } code

def scanner : Scanner State where
  start := .start
  step state line :=
    let (tag, next) := step state line
    ([some tag.text], next)

end LineLedger.Pascal
