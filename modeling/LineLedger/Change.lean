import LineLedger.Table
import LineLedger.Text.Lines
import LineLedger.Path

set_option autoImplicit false

namespace LineLedger

inductive ChangeKind where
  | insert
  | delete
  | edit
deriving DecidableEq, Repr

def ChangeKind.name : ChangeKind → String
  | .insert => "insert"
  | .delete => "delete"
  | .edit => "edit"

structure Change where
  line : Nat
  old : Option String
  new : Option String
  kind : ChangeKind
deriving DecidableEq, Repr

namespace Change

-- New text is always ended by a line feed, so that no two lines are joined.
def make (line : Nat) (old new : Option String) (kind : ChangeKind) : Change :=
  ⟨line, old, new.map Text.terminated, kind⟩

def insertion (line : Nat) (text : String) : Change := make line none (some text) .insert

def deletion (line : Nat) (old : Option String) : Change := make line old none .delete

def replacing (line : Nat) (old : Option String) (text : String) : Change :=
  make line old (some text) .edit

-- What the change puts at its line; a deleted line stays as a blank one.
def replacement (c : Change) : String :=
  match c.kind with
  | .delete => "\n"
  | .insert | .edit => c.new.getD "\n"

end Change

structure ChangeSet where
  path : Path
  changes : Table Nat Change
deriving DecidableEq

namespace ChangeSet

def empty (path : Path) : ChangeSet := ⟨path, .empty⟩

def record (set : ChangeSet) (change : Change) : ChangeSet :=
  { set with changes := set.changes.insert change.line change }

def get? (set : ChangeSet) (line : Nat) : Option Change := set.changes.get? line

def toList (set : ChangeSet) : List Change := set.changes.values

def size (set : ChangeSet) : Nat := set.changes.size

def isEmpty (set : ChangeSet) : Bool := set.changes.isEmpty

end ChangeSet

def terminateLast : List String → List String
  | [] => []
  | [last] => [Text.terminated last]
  | line :: rest => line :: terminateLast rest

namespace Change

def applyTo (lines : List String) (c : Change) : List String :=
  if c.line < lines.length then
    match c.kind with
    | .insert => lines.insertIdx c.line c.replacement
    | .delete | .edit => lines.set c.line c.replacement
  else
    match c.kind with
    | .delete => lines
    | .insert | .edit => terminateLast lines ++ [c.replacement]

end Change

namespace ChangeSet

def overlay (set : ChangeSet) (lines : List String) : Table Nat String :=
  let reachesPast := set.changes.lastKey?.any fun last => lines.length ≤ last
  let base := Table.enumerate (if reachesPast then terminateLast lines else lines)
  set.toList.foldl (fun shown change => shown.insert change.line change.replacement) base

-- The lines after the changes are applied in ascending order; each refers to the lines as the ones
-- before it left them.
def apply (set : ChangeSet) (lines : List String) : List String :=
  set.toList.foldl Change.applyTo lines

end ChangeSet

end LineLedger
