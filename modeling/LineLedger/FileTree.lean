import LineLedger.Path
import LineLedger.Table

set_option autoImplicit false

namespace LineLedger

inductive Content where
  | text (text : String)
  | bytes (bytes : List UInt8)
deriving DecidableEq, Repr

def Content.ofBytes (bytes : ByteArray) : Content :=
  match String.fromUTF8? bytes with
  | some decoded => .text decoded
  | none => .bytes bytes.toList

inductive Node where
  | folder
  -- A file is locked while another program holds the lock on it.
  | file (content : Content) (isLocked : Bool)
deriving DecidableEq, Repr

-- The names of the folders around an entry from the root on, and its own.
abbrev FullName := List String

-- The root is a folder that no entry stands for.
def nodeAt (nodes : Table FullName Node) (name : FullName) : Option Node :=
  if name.isEmpty then some .folder else nodes.get? name

structure Holds (nodes : Table FullName Node) (name : FullName) : Prop where
  named : name ≠ []
  proper : ∀ part ∈ name, IsName part
  around : nodeAt nodes name.dropLast = some .folder

instance (nodes : Table FullName Node) (name : FullName) : Decidable (Holds nodes name) :=
  decidable_of_iff (name ≠ [] ∧ (∀ part ∈ name, IsName part) ∧
    nodeAt nodes name.dropLast = some .folder)
    ⟨fun ⟨named, proper, around⟩ => ⟨named, proper, around⟩,
      fun ⟨named, proper, around⟩ => ⟨named, proper, around⟩⟩

structure FileTree where
  nodes : Table FullName Node
  held : ∀ e ∈ nodes.entries, Holds nodes e.1

namespace FileTree

instance : DecidableEq FileTree := fun t u =>
  decidable_of_iff (t.nodes = u.nodes) (by cases t; cases u; simp)

def empty : FileTree := ⟨.empty, fun _ member => nomatch member⟩

def node? (t : FileTree) (name : FullName) : Option Node := nodeAt t.nodes name

def below (t : FileTree) (name : FullName) : List (FullName × Node) :=
  t.nodes.entries.filter fun (other, _) => name.isPrefixOf other && other ≠ name

def Fits (t : FileTree) (name : FullName) (node : Node) : Prop :=
  Holds t.nodes name ∧ (node = .folder ∨ t.below name = [])

instance (t : FileTree) (name : FullName) (node : Node) : Decidable (t.Fits name node) :=
  inferInstanceAs (Decidable (_ ∧ _))

section Put

variable {t : FileTree} {name other : FullName} {node there : Node}

theorem nodeAt_insert (named : name ≠ []) (nodes : Table FullName Node) (node : Node)
    (other : FullName) :
    nodeAt (nodes.insert name node) other =
      if other = name then some node else nodeAt nodes other := by
  by_cases here : other = name
  · simp [nodeAt, here, named, Table.get?_insert]
  · simp [nodeAt, here, Table.get?_insert]

theorem dropLast_ne (named : name ≠ []) : name.dropLast ≠ name := by
  intro same
  have shorter := congrArg List.length same
  have positive := List.length_pos_iff.2 named
  rw [List.length_dropLast] at shorter
  omega

theorem mem_below_dropLast (member : (other, there) ∈ t.nodes.entries)
    (named : other ≠ []) : (other, there) ∈ t.below other.dropLast := by
  have apart := dropLast_ne named
  simp [below, member, List.dropLast_prefix, apart.symm]

theorem held_insert (fits : t.Fits name node) :
    ∀ e ∈ (t.nodes.insert name node).entries, Holds (t.nodes.insert name node) e.1 := by
  rintro ⟨other, there⟩ member
  have ⟨held, free⟩ := fits
  have found := (Table.get?_eq_some_iff ..).2 member
  rw [Table.get?_insert] at found
  by_cases here : other = name
  · subst here
    refine ⟨held.named, held.proper, ?_⟩
    rw [nodeAt_insert held.named, if_neg (dropLast_ne held.named), held.around]
  · rw [if_neg here, Table.get?_eq_some_iff] at found
    have before := t.held _ found
    refine ⟨before.named, before.proper, ?_⟩
    rw [nodeAt_insert held.named]
    split
    · -- Something is below the name, so it is a folder that is put there.
      rename_i around
      rcases free with folder | none
      · rw [folder]
      · have under := mem_below_dropLast found before.named
        rw [around, none] at under
        cases under
    · exact before.around

def put (t : FileTree) (name : FullName) (node : Node) : FileTree :=
  if fits : t.Fits name node then ⟨t.nodes.insert name node, held_insert fits⟩ else t

theorem node?_put (fits : t.Fits name node) (other : FullName) :
    (t.put name node).node? other = if other = name then some node else t.node? other := by
  rw [put, dif_pos fits]
  exact nodeAt_insert fits.1.named ..

theorem node?_put_of_ne (apart : other ≠ name) (node : Node) :
    (t.put name node).node? other = t.node? other := by
  by_cases fits : t.Fits name node
  · rw [node?_put fits, if_neg apart]
  · rw [put, dif_neg fits]

end Put

section Prune

variable {t : FileTree} {name other : FullName}

theorem nodeAt_filter (keep : FullName → Bool) (root : keep [] = true)
    (nodes : Table FullName Node) (other : FullName) :
    nodeAt (nodes.filter keep) other = if keep other then nodeAt nodes other else none := by
  cases other with
  | nil => simp [nodeAt, root]
  | cons first rest => simp [nodeAt, Table.get?_filter]

-- An entry that is not below the one has nothing around it that is.
theorem held_filter (named : name ≠ []) :
    ∀ e ∈ (t.nodes.filter fun other => ¬ name <+: other).entries,
      Holds (t.nodes.filter fun other => ¬ name <+: other) e.1 := by
  intro e member
  obtain ⟨listed, kept⟩ := List.mem_filter.1 member
  have before := t.held e listed
  have apart : ¬ name <+: e.1.dropLast := fun under =>
    of_decide_eq_true kept (under.trans (List.dropLast_prefix _))
  refine ⟨before.named, before.proper, ?_⟩
  rw [nodeAt_filter _ (by simpa using named), if_pos (decide_eq_true apart), before.around]

def prune (t : FileTree) (name : FullName) : FileTree :=
  if named : name = [] then t
  else ⟨t.nodes.filter fun other => ¬ name <+: other, held_filter named⟩

theorem node?_prune (named : name ≠ []) (other : FullName) :
    (t.prune name).node? other = if name <+: other then none else t.node? other := by
  rw [prune, dif_neg named]
  refine (nodeAt_filter _ (by simpa using named) ..).trans ?_
  by_cases under : name <+: other <;> simp [under, node?]

end Prune

section Stands

variable {t : FileTree} {name : FullName} {node : Node}

theorem holds_of_node? (found : t.node? name = some node) (named : name ≠ []) :
    Holds t.nodes name := by
  rw [node?, nodeAt, if_neg (by simpa using named), Table.get?_eq_some_iff] at found
  exact t.held _ found

theorem around (found : t.node? name = some node) : t.node? name.dropLast = some .folder := by
  by_cases named : name = []
  · subst named
    rfl
  · exact (holds_of_node? found named).around

theorem ext_node? {t u : FileTree} (same : ∀ name, t.node? name = u.node? name) : t = u := by
  have unnamed (t : FileTree) : t.nodes.get? [] = none := by
    refine Option.eq_none_iff_forall_ne_some.2 fun node found => ?_
    exact (t.held _ ((Table.get?_eq_some_iff ..).1 found)).named rfl
  have nodes : t.nodes = u.nodes := by
    refine Table.ext_get? fun name => ?_
    cases name with
    | nil => rw [unnamed, unnamed]
    | cons first rest => exact same (first :: rest)
  cases t
  cases u
  cases nodes
  rfl

end Stands

end FileTree

end LineLedger
