import LineLedger.Text.Blank

set_option autoImplicit false

namespace LineLedger.Text

-- Lines with their line feeds; the last one may lack it, and none is empty.
def splitLines : List Char → List (List Char)
  | [] => []
  | c :: rest =>
    if c = '\n' then ['\n'] :: splitLines rest
    else
      match splitLines rest with
      | [] => [[c]]
      | line :: lines => (c :: line) :: lines

theorem flatten_splitLines (text : List Char) : (splitLines text).flatten = text := by
  induction text with
  | nil => rfl
  | cons c rest ih =>
      rw [splitLines]
      split
      · rename_i feed
        simp [ih, feed]
      · split
        · rename_i none
          simp [none] at ih
          simp [← ih]
        · rename_i line lines some
          rw [some] at ih
          simp at ih
          simp [ih]

def isBreak (c : Char) : Bool := c = '\n' || c = '\r'

def chomp (line : List Char) : List Char := dropEndWhile isBreak line

def numberedLines (text : List Char) : List (Nat × List Char) :=
  ((splitLines text).map chomp).zipIdx 1 |>.map Prod.swap

def endsLine (text : List Char) : Bool := text.getLast? = some '\n'

def terminate (text : List Char) : List Char :=
  if endsLine text then text else text ++ ['\n']

theorem endsLine_terminate (text : List Char) : endsLine (terminate text) = true := by
  unfold terminate
  split
  · assumption
  · simp [endsLine]

def lines (text : String) : List String := (splitLines text.toList).map String.ofList

def terminated (text : String) : String := String.ofList (terminate text.toList)

end LineLedger.Text
