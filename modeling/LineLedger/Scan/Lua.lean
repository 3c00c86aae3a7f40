import LineLedger.Scan.Basic
import LineLedger.Nesting
import LineLedger.Text.Word

set_option autoImplicit false

namespace LineLedger.Lua

def afterComment? : List Char → Option (List Char)
  | [] => none
  | ']' :: ']' :: rest => some rest
  | _ :: rest => afterComment? rest

-- Code up to the end of the line or the start of a block comment, and what follows the start.
-- Quotes stay in the code, what they enclose does not.
def codeUntilComment : Option Char → List Char → List Char × Option (List Char)
  | _, [] => ([], none)
  | some _, ['\\'] => ([], none)
  | some quote, '\\' :: _ :: rest => codeUntilComment (some quote) rest
  | some quote, c :: rest =>
    if c = quote then
      let (code, comment) := codeUntilComment none rest
      (c :: code, comment)
    else codeUntilComment (some quote) rest
  | none, '-' :: '-' :: '[' :: '[' :: rest => ([], some rest)
  | none, '-' :: '-' :: _ => ([], none)
  | none, c :: rest =>
    let (code, comment) := codeUntilComment (if c = '"' || c = '\'' then some c else none) rest
    (c :: code, comment)

theorem length_of_afterComment? {text rest : List Char} (found : afterComment? text = some rest) :
    rest.length < text.length := by
  fun_induction afterComment? text with
  | case1 => simp at found
  | case2 tail =>
      cases found
      simp only [List.length_cons]
      omega
  | case3 c tail other ih =>
      have := ih found
      simp only [List.length_cons]
      omega

theorem length_of_codeUntilComment {quote : Option Char} {text rest : List Char}
    (found : (codeUntilComment quote text).2 = some rest) : rest.length < text.length := by
  fun_induction codeUntilComment quote text <;> simp_all <;> omega

mutual

def stripCode (line : List Char) : List Char × Bool :=
  match _eq : codeUntilComment none line with
  | (code, none) => (code, false)
  | (code, some rest) =>
    let (more, inComment) := stripComment rest
    (code ++ more, inComment)
termination_by line.length
decreasing_by exact length_of_codeUntilComment (by rw [_eq])

def stripComment (line : List Char) : List Char × Bool :=
  match _eq : afterComment? line with
  | none => ([], true)
  | some rest => stripCode rest
termination_by line.length
decreasing_by exact length_of_afterComment? _eq

end

def strip (inComment : Bool) (line : List Char) : List Char × Bool :=
  if inComment then stripComment line else stripCode line

inductive Role where
  | function
  | conditional
  | elseIf
  | otherwise
  | closed (label : String)
  | table
  | tableEnd
  | variable
  | require
  | forLoop
  | whileLoop
  | repeatLoop
  | untilLoop (label : String)
deriving DecidableEq, Repr

structure Tag where
  role : Role
  level : Nat
deriving DecidableEq, Repr

def Role.name : Role → String
  | .function => "f"
  | .conditional => "if"
  | .elseIf => "elseif"
  | .otherwise => "else"
  | .closed label => "end " ++ label
  | .table => "tb"
  | .tableEnd => "eof tb"
  | .variable => "var"
  | .require => "require"
  | .forLoop => "for"
  | .whileLoop => "while"
  | .repeatLoop => "repeat"
  | .untilLoop label => "until " ++ label

-- Variables report the level of the function around them, hence the other unit.
def Role.unit : Role → String
  | .variable => "fsl"
  | _ => "sl"

def Tag.text (tag : Tag) : String :=
  tag.role.name ++ " (" ++ tag.role.unit ++ " " ++ toString tag.level ++ ")"

def words (code : List Char) : List String := (Text.codeWords code).map String.ofList

-- A block that is closed by the statement that opens it leaves the nesting as it was.
def openBlock (nesting : Nesting) (label : String) (role : Role) (closed : Bool) : Tag × Nesting :=
  let inner := nesting.push label
  (⟨role, inner.level⟩, if closed then inner.pop else inner)

-- An else or elseif ends the branch before it and opens its own.
def nextBranch (nesting : Nesting) (label : String) (role : Role) : Tag × Nesting :=
  let inner := nesting.pop.push label
  (⟨role, inner.level⟩, inner)

def closeBlock (nesting : Nesting) (role : String → Role) : Tag × Nesting :=
  (⟨role nesting.topLabel, nesting.pop.level⟩, nesting.pop)

def pushes : Nat → Nesting → Nesting
  | 0, nesting => nesting
  | n + 1, nesting => pushes n (nesting.push "parenthesis")

def pops : Nat → Nesting → Nesting
  | 0, nesting => nesting
  | n + 1, nesting => pops n nesting.pop

-- Parentheses left open or closed in excess carry the nesting across statements.
def trackParens (code : List Char) (nesting : Nesting) : Nesting :=
  let opened := code.count '('
  let closed := code.count ')'
  pops (closed - opened) (pushes (opened - closed) nesting)

def classify (nesting : Nesting) (code : List Char) : Option Tag × Nesting :=
  if code.isEmpty then (none, nesting)
  else
    let words := words code
    let has (keyword : String) : Bool := words.contains keyword
    let tagged (result : Tag × Nesting) : Option Tag × Nesting := (some result.1, result.2)
    if has "function" then tagged (openBlock nesting "function" .function (has "end"))
    else if has "if" then tagged (openBlock nesting "if" .conditional (has "end"))
    else if has "elseif" then tagged (nextBranch nesting "elseif" .elseIf)
    else if has "else" then tagged (nextBranch nesting "else" .otherwise)
    else if has "end" then tagged (closeBlock nesting .closed)
    else if code.contains '{' && code.contains '}' then
      (some ⟨.table, nesting.level⟩, nesting)
    else if code.contains '{' then tagged (openBlock nesting "table" .table false)
    else if code.contains '}' then tagged (closeBlock nesting fun _ => .tableEnd)
    else if has "local" && code.contains '=' then (some ⟨.variable, nesting.level⟩, nesting)
    else if has "require" then (some ⟨.require, nesting.level⟩, nesting)
    else if has "for" then tagged (openBlock nesting "for" .forLoop (has "end"))
    else if has "while" then tagged (openBlock nesting "while" .whileLoop (has "end"))
    else if has "repeat" then tagged (openBlock nesting "repeat" .repeatLoop false)
    else if has "until" then tagged (closeBlock nesting .untilLoop)
    else (none, trackParens code nesting)

structure State where
  nesting : Nesting
  inComment : Bool
deriving DecidableEq, Repr

def State.start : State := ⟨.empty, false⟩

def statements (code : List Char) : List (List Char) :=
  (Text.splitAt (· = ';') code).map Text.trim

def classifyAll (nesting : Nesting) : List (List Char) → List Tag × Nesting
  | [] => ([], nesting)
  | code :: rest =>
    let (tag, nesting) := classify nesting code
    let (tags, nesting) := classifyAll nesting rest
    (tag.toList ++ tags, nesting)

def step (state : State) (line : List Char) : List Tag × State :=
  let (code, inComment) := strip state.inComment line
  let (tags, nesting) := classifyAll state.nesting (statements code)
  (tags, ⟨nesting, inComment⟩)

def scanner : Scanner State where
  start := .start
  step state line :=
    let (tags, next) := step state line
    (tags.map fun tag => some tag.text, next)

end LineLedger.Lua
