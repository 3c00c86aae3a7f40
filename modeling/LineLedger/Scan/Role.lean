import LineLedger.Nesting

set_option autoImplicit false

namespace LineLedger

inductive Role where
  | declaration
  | blockStart
  | blockEnd
  | assignment
  | assignmentStart
  | assignmentPart
  | assignmentEnd
  | access
  | unknown
deriving DecidableEq, Repr

namespace Role

def name : Role → String
  | .declaration => "declaration"
  | .blockStart => "block_start"
  | .blockEnd => "block_end"
  | .assignment => "assignment"
  | .assignmentStart => "multiline_assignment_start"
  | .assignmentPart => "multiline_assignment"
  | .assignmentEnd => "multiline_assignment_end"
  | .access => "access"
  | .unknown => "unknown"

end Role

structure LeveledRole where
  role : Role
  level : Nat
deriving DecidableEq, Repr

def LeveledRole.text (r : LeveledRole) : String :=
  r.role.name ++ "(" ++ toString r.level ++ ")"

end LineLedger
