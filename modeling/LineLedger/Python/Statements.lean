import LineLedger.Python.Tree
import LineLedger.Scan.Basic
import LineLedger.Table

set_option autoImplicit false

namespace LineLedger.Python

structure Found where
  kind : StatementKind
  level : Nat
deriving DecidableEq, Repr

def tagText (name : String) (level : Nat) : String :=
  "cs(" ++ name ++ ", " ++ toString level ++ ")"

def Found.text (f : Found) : String := tagText f.kind.code f.level

structure RowSpan where
  first : Nat
  last : Nat
deriving DecidableEq, Repr

def RowSpan.holds (span : RowSpan) (row : Nat) : Bool := span.first ≤ row && row ≤ span.last

-- The rows of a node; one that ends where a later row begins does not reach into it.
def Tree.rowSpan (t : Tree) : RowSpan where
  first := t.start.row
  last := if t.stop.column = 0 && t.start.row < t.stop.row then t.stop.row - 1 else t.stop.row

structure Outline where
  rows : Table Nat (List Found)
  errors : List RowSpan
deriving DecidableEq

namespace Outline

def empty : Outline := ⟨.empty, []⟩

def add (o : Outline) (row : Nat) (found : Found) : Outline :=
  { o with rows := o.rows.insert row ((o.rows.get? row).getD [] ++ [found]) }

def addError (o : Outline) (span : RowSpan) : Outline :=
  { o with errors := o.errors ++ [span] }

def isError (o : Outline) (row : Nat) : Bool := o.errors.any (·.holds row)

end Outline

structure Visit where
  node : Node
  level : Nat

namespace Visit

def size (v : Visit) : Nat := v.node.tree.size

def sizes : List Visit → Nat
  | [] => 0
  | v :: rest => v.size + sizes rest

-- The level in the node, which its own report has too.
def innerLevel (v : Visit) : Nat :=
  if v.node.tree.isError then v.level
  else
    match v.node.statement? with
    | some _ => if v.node.tree.opensScope then v.level + 1 else v.level
    | none => v.level

def inner (v : Visit) : List Visit := v.node.children.map (⟨·, v.innerLevel⟩)

def record (v : Visit) (o : Outline) : Outline :=
  if v.node.tree.isError then o.addError v.node.tree.rowSpan
  else
    match v.node.statement? with
    | some kind => o.add v.node.tree.start.row ⟨kind, v.innerLevel⟩
    | none => o

theorem sizes_map (trees : List Tree) (around : List Tree) (level : Nat) :
    sizes (trees.map fun t => ⟨⟨t, around⟩, level⟩) = Tree.sizes trees := by
  induction trees with
  | nil => rfl
  | cons t rest ih => rw [List.map_cons, sizes, ih, Tree.sizes, size]

theorem sizes_append (first second : List Visit) :
    sizes (first ++ second) = sizes first + sizes second := by
  induction first with
  | nil => simp [sizes]
  | cons v rest ih => simp [sizes, ih, Nat.add_assoc]

theorem sizes_inner (v : Visit) : sizes v.inner + 1 = v.size := by
  have moved : v.inner = v.node.tree.children.map fun t =>
      ⟨⟨t, v.node.tree :: v.node.around⟩, v.innerLevel⟩ := List.map_map
  rw [moved, sizes_map, size, Tree.size_eq]

end Visit

def visitAll (o : Outline) : List Visit → Outline
  | [] => o
  | v :: rest => visitAll (v.record o) (v.inner ++ rest)
termination_by visits => Visit.sizes visits
decreasing_by
  have := v.sizes_inner
  rw [Visit.sizes_append, Visit.sizes]
  omega

def outline (t : Tree) : Outline := visitAll .empty [⟨⟨t, []⟩, 0⟩]

-- Blank lines and lines that are only a comment get no mark, wherever they stand.
def isSilent (line : List Char) : Bool :=
  match Text.trim line with
  | [] => true
  | c :: _ => c = '#'

def lastLevel (level : Nat) (found : List Found) : Nat :=
  match found.getLast? with
  | some f => f.level
  | none => level

def marks (o : Outline) (level : Nat) : List (Nat × List Char) → List Mark
  | [] => []
  | (number, line) :: rest =>
    if isSilent line then marks o level rest
    else
      match o.rows.get? (number - 1) with
      | some found =>
        found.map (fun f => ⟨number, some f.text, line⟩) ++ marks o (lastLevel level found) rest
      | none =>
        let name := if o.isError (number - 1) then "unknown" else "cont"
        ⟨number, some (tagText name level), line⟩ :: marks o level rest

def scanTree (t : Tree) (source : List Char) : List Mark :=
  marks (outline t) 0 (Text.numberedLines source)

-- Reads a source as a tree, if it can.
class Grammar where
  tree? : List Char → Option Tree

-- Without a tree no line is understood.
def scan [Grammar] (source : List Char) : List Mark :=
  match Grammar.tree? source with
  | some t => scanTree t source
  | none =>
    let numbered := Text.numberedLines source
    marks ⟨.empty, [⟨0, numbered.length⟩]⟩ 0 numbered

end LineLedger.Python
