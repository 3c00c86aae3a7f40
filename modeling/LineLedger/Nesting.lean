set_option autoImplicit false

namespace LineLedger

structure Block where
  label : String
  level : Nat
deriving DecidableEq, Repr

structure Nesting where
  blocks : List Block
deriving DecidableEq, Repr

namespace Nesting

def noLabel : String := "none"

def empty : Nesting := ⟨[]⟩

def level (n : Nesting) : Nat :=
  match n.blocks with
  | [] => 0
  | b :: _ => b.level

def top? (n : Nesting) : Option Block := n.blocks.head?

def topLabel (n : Nesting) : String :=
  match n.blocks with
  | [] => noLabel
  | b :: _ => b.label

def size (n : Nesting) : Nat := n.blocks.length

def isEmpty (n : Nesting) : Bool := n.blocks.isEmpty

def push (n : Nesting) (label : String) : Nesting :=
  ⟨⟨label, n.level + 1⟩ :: n.blocks⟩

def pop (n : Nesting) : Nesting := ⟨n.blocks.tail⟩

def close (n : Nesting) : Option Block × Nesting := (n.top?, n.pop)

@[simp] theorem level_empty : empty.level = 0 := rfl

@[simp] theorem level_push (n : Nesting) (label : String) :
    (n.push label).level = n.level + 1 := rfl

@[simp] theorem topLabel_push (n : Nesting) (label : String) :
    (n.push label).topLabel = label := rfl

@[simp] theorem pop_push (n : Nesting) (label : String) : (n.push label).pop = n := rfl

@[simp] theorem pop_empty : empty.pop = empty := rfl

end Nesting

end LineLedger
