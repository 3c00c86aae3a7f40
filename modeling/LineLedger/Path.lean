set_option autoImplicit false

namespace LineLedger

inductive Component where
  | root
  | current
  | parent
  | name (text : String)
deriving DecidableEq, Repr

namespace Component

def rank : Component → Nat
  | .root => 0
  | .current => 1
  | .parent => 2
  | .name _ => 3

def text : Component → String
  | .root => "/"
  | .current => "."
  | .parent => ".."
  | .name text => text

-- The root sorts first, then the dots, then names by their characters.
instance : Ord Component where
  compare := compareLex (compareOn rank) (compareOn text)

theorem compare_eq (a b : Component) :
    compare a b = compareLex (compareOn rank) (compareOn text) a b := rfl

instance : Std.TransOrd Component :=
  inferInstanceAs (Std.TransCmp (compareLex (compareOn rank) (compareOn text)))

instance : Std.LawfulEqOrd Component where
  compare_self := by simp
  eq_of_compare {a b} equal := by
    rw [compare_eq, compareLex_eq_eq] at equal
    obtain ⟨ranks, texts⟩ := equal
    have ranks := Std.LawfulEqOrd.eq_of_compare ranks
    have texts := Std.LawfulEqOrd.eq_of_compare texts
    cases a <;> cases b <;> simp_all [rank, text]

end Component

abbrev Route := List Component

structure Path where
  text : String
deriving DecidableEq, Repr

def IsName (name : String) : Prop := name ≠ "" ∧ name ≠ "." ∧ name ≠ ".." ∧ '/' ∉ name.toList

instance (name : String) : Decidable (IsName name) :=
  inferInstanceAs (Decidable (_ ∧ _))

namespace Path

def pieces : List Char → List (List Char)
  | [] => [[]]
  | c :: rest =>
    if c = '/' then [] :: pieces rest
    else
      match pieces rest with
      | [] => [[c]]
      | piece :: more => (c :: piece) :: more

def segments (p : Path) : List String := (pieces p.text.toList).map String.ofList

def isAbsolute (p : Path) : Bool := p.text.toList.head? = some '/'

def componentOf (segment : String) : Component :=
  if segment = ".." then .parent else .name segment

def plainRoute (segments : List String) : Route :=
  (segments.filter fun s => s ≠ "" && s ≠ ".").map componentOf

def route (p : Path) : Route :=
  if p.isAbsolute then .root :: plainRoute p.segments
  else
    match p.segments with
    | "." :: rest => .current :: plainRoute rest
    | segments => plainRoute segments

def counts (place : Nat) (segment : String) : Bool :=
  segment ≠ "" && (segment ≠ "." || place = 0)

def places (p : Path) : List Nat :=
  (p.segments.zipIdx.filter fun (segment, place) => counts place segment).map Prod.snd

def joinSegments (segments : List String) : String := "/".intercalate segments

-- The spelling up to the component before the last; `none` for the root and the empty path.
def parent? (p : Path) : Option Path :=
  match p.places.reverse with
  | [] => none
  | [_] => some ⟨if p.isAbsolute then "/" else ""⟩
  | _ :: place :: _ => some ⟨joinSegments (p.segments.take (place + 1))⟩

def fileName? (p : Path) : Option String :=
  match p.route.getLast? with
  | some (.name text) => some text
  | _ => none

def baseName (p : Path) : String := p.fileName?.getD p.text

def splitAtDot (name : List Char) : List Char × Option (List Char) :=
  let after := (name.reverse.takeWhile (· ≠ '.')).reverse
  let before := name.take (name.length - after.length - 1)
  if before.isEmpty || after.length = name.length then (name, none) else (before, some after)

def extension? (p : Path) : Option String :=
  p.fileName?.bind fun name => (splitAtDot name.toList).2.map String.ofList

def dottedExtension? (p : Path) : Option String := p.extension?.map ("." ++ ·)

-- An absolute path stands for itself, whatever it is joined to.
def join (base p : Path) : Path :=
  if p.isAbsolute then p
  else if base.text.isEmpty || base.text.toList.getLast? = some '/' then ⟨base.text ++ p.text⟩
  else ⟨base.text ++ "/" ++ p.text⟩

def joinName (base : Path) (name : String) : Path := base.join ⟨name⟩

def withExtension (p : Path) (extension : String) : Path :=
  match p.fileName?, p.places.getLast? with
  | some name, some place =>
    let stem := String.ofList (splitAtDot name.toList).1
    ⟨joinSegments (p.segments.take place ++ [stem ++ "." ++ extension])⟩
  | _, _ => p

def Same (p q : Path) : Prop := p.route = q.route

instance (p q : Path) : Decidable (Same p q) := inferInstanceAs (Decidable (p.route = q.route))

def before (p q : Path) : Bool := compare p.route q.route = .lt

end Path

end LineLedger
