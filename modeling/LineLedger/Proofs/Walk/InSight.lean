import Mathlib.Data.List.Sort
import LineLedger.Proofs.Path
import LineLedger.Proofs.Table
import LineLedger.Proofs.Walk
import LineLedger.Walk.Ignore

set_option autoImplicit false

namespace LineLedger.Disk

section Walk

variable {d : Disk} {root : Path} {folder : FullName}

def holdsFile (d : Disk) (full : FullName) : Bool :=
  match d.node? full with
  | some (.file _ _) => true
  | _ => false

def comesTo (d : Disk) (folder full : FullName) : Bool :=
  folder.isPrefixOf full && full ≠ folder && d.holdsFile full && d.isReached folder full false

def reached (d : Disk) (folder : FullName) : List (List String) :=
  (d.tree.nodes.keys.filter (d.comesTo folder)).map (·.drop folder.length)

theorem below_of_comesTo {full : FullName} (comes : d.comesTo folder full = true) :
    full = folder ++ full.drop folder.length ∧ full ≠ folder := by
  simp only [comesTo, Bool.and_eq_true, List.isPrefixOf_iff_prefix, decide_eq_true_eq] at comes
  obtain ⟨⟨⟨⟨names, rfl⟩, other⟩, -⟩, -⟩ := comes
  exact ⟨by rw [List.drop_left], other⟩

theorem mem_reached {names : List String} (member : names ∈ d.reached folder) :
    names ≠ [] ∧ ∀ name ∈ names, IsName name := by
  obtain ⟨full, kept, rfl⟩ := List.mem_map.1 member
  obtain ⟨listed, comes⟩ := List.mem_filter.1 kept
  obtain ⟨entry, held, rfl⟩ := List.mem_map.1 listed
  have ⟨split, other⟩ := below_of_comesTo comes
  refine ⟨fun none => other ?_, fun name among => ?_⟩
  · rw [split, none, List.append_nil]
  · exact (d.tree.held entry held).proper name (List.mem_of_mem_drop among)

theorem pairwise_reached : (d.reached folder).Pairwise (· ≠ ·) := by
  rw [reached, List.pairwise_map]
  refine List.Pairwise.imp_of_mem ?_ (d.tree.nodes.nodup_keys.sublist List.filter_sublist)
  intro one two first second other same
  have here := (below_of_comesTo (List.mem_filter.1 first).2).1
  have there := (below_of_comesTo (List.mem_filter.1 second).2).1
  rw [here, there, same] at other
  exact other rfl

theorem filesInSight_eq (located : d.locate root = .ok folder) :
    d.filesInSight root = (d.reached folder).map root.descend := by
  rw [filesInSight, located, reached, Table.keys, List.filter_map, List.map_map, List.map_map]
  simp only [below, FileTree.below, List.filterMap_filter]
  rw [← List.filterMap_eq_map, List.filterMap_filter]
  refine List.filterMap_congr fun entry member => ?_
  obtain ⟨full, node⟩ := entry
  simp only [Function.comp_apply, comesTo, Bool.and_eq_true]
  by_cases within : List.isPrefixOf folder full = true ∧ decide (full ≠ folder) = true
  · have held : d.node? full = some node := by
      rw [node?, FileTree.node?, nodeAt, if_neg (by simpa using (d.tree.held _ member).named)]
      exact (Table.get?_eq_some_iff ..).2 member
    cases node with
    | folder => simp [holdsFile, held]
    | file content isLocked => simp [within, holdsFile, held, Path.descend]
  · rw [if_neg within, if_neg fun all => within all.1.1]

theorem exists_reached {path : Path} (member : path ∈ d.filesInSight root) :
    ∃ folder names, d.locate root = .ok folder ∧ names ∈ d.reached folder ∧
      path = root.descend names := by
  cases located : d.locate root with
  | error fault =>
    rw [filesInSight, located] at member
    cases member
  | ok folder =>
    rw [filesInSight_eq located] at member
    obtain ⟨names, entered, rfl⟩ := List.mem_map.1 member
    exact ⟨folder, names, rfl, entered, rfl⟩

theorem distinct_filesInSight (d : Disk) (root : Path) : d.Distinct (d.filesInSight root) := by
  cases located : d.locate root with
  | error fault =>
    rw [filesInSight, located]
    exact ⟨.nil, .nil⟩
  | ok folder =>
    have filled := filled_of_accepted (locate_eq_ok_iff.1 located).1
    rw [filesInSight_eq located]
    constructor
    · refine List.pairwise_map.2 (pairwise_reached.imp_of_mem ?_)
      intro one two first second other same
      refine other ?_
      have routes : (root.descend one).route = (root.descend two).route := same
      rw [Path.route_descend filled (mem_reached first).2,
        Path.route_descend filled (mem_reached second).2, List.append_cancel_left_eq] at routes
      exact List.map_injective_iff.2 (fun _ _ same => Component.name.inj same) routes
    · refine List.pairwise_map.2 (pairwise_reached.imp_of_mem ?_)
      intro one two first second other full here there
      have here := locate_descend located (mem_reached first).2 here.located
      have there := locate_descend located (mem_reached second).2 there.located
      exact other (List.append_cancel_left (here.symm.trans there))

end Walk

section Again

variable {d e : Disk} {root : Path} {folder : FullName} {extensions : List String}
  {paths : List Path}

theorem SameShape.holdsFile_eq (shape : SameShape d e) (full : FullName) :
    e.holdsFile full = d.holdsFile full := by
  have present := shape.present full
  have folders := shape.folders full
  rw [holdsFile, holdsFile]
  rcases left : e.node? full with _ | _ | _ <;> rcases right : d.node? full with _ | _ | _ <;>
    simp_all

def ruleNames : List String := [".ignore", ".gitignore", "exclude", "ignore"]

theorem extension?_of_ruleNames :
    ∀ name ∈ ruleNames, (Path.splitAtDot name.toList).2 = none := by decide

def HoldsRules (_ : Disk) (full : FullName) : Prop := ∃ last ∈ ruleNames, full.getLast? = some last

def SameRules (d e : Disk) : Prop := ∀ full, HoldsRules d full → e.node? full = d.node? full

theorem verdict_eq (shape : SameShape d e) (settings : e.settings = d.settings)
    (rules : SameRules d e) (full : FullName) (isFolder : Bool) :
    e.verdict full isFolder = d.verdict full isFolder := by
  have same {file : FullName} {last : String} (ends : file.getLast? = some last)
      (listed : last ∈ ruleNames) : e.ignoreRules file = d.ignoreRules file := by
    rw [ignoreRules, ignoreRules, rules file ⟨last, listed, ends⟩]
  have own : e.userVerdict full isFolder = d.userVerdict full isFolder := by
    rw [userVerdict, userVerdict, settings, shape.locate_eq, shape.working]
    split
    · rename_i file located
      obtain ⟨folder, _, rfl⟩ := follow_joinName (Path.filled_joinName (by decide) _) (by decide)
        (locate_eq_ok_iff.1 located).2
      simp only [fileVerdict, same (List.getLast?_concat ..) (by decide : "ignore" ∈ ruleNames)]
    · rfl
  have near (front : FullName) {name : String} (listed : name ∈ ruleNames) :
      e.ignoreRules (front ++ [name]) = d.ignoreRules (front ++ [name]) :=
    same (List.getLast?_concat ..) listed
  have far (front : FullName) : e.ignoreRules (front ++ [".git", "info", "exclude"]) =
      d.ignoreRules (front ++ [".git", "info", "exclude"]) :=
    same (by simp) (by decide : "exclude" ∈ ruleNames)
  simp only [verdict, own, fileVerdict, far, near _ (by decide : ".ignore" ∈ ruleNames),
    near _ (by decide : ".gitignore" ∈ ruleNames)]

theorem reached_eq (shape : SameShape d e) (settings : e.settings = d.settings)
    (rules : SameRules d e) (folder : FullName) : e.reached folder = d.reached folder := by
  have comes : e.comesTo folder = d.comesTo folder := by
    funext full
    simp only [comesTo, shape.holdsFile_eq, isReached, isLeftOut, verdict_eq shape settings rules]
  have listed (full : FullName) (comes : d.comesTo folder full = true) :
      full ∈ e.tree.nodes.keys ↔ full ∈ d.tree.nodes.keys := by
    have named : full ≠ [] := by
      rintro rfl
      have ⟨split, other⟩ := below_of_comesTo comes
      exact other (List.append_eq_nil_iff.1 split.symm).1.symm
    have present := shape.present full
    simp only [node?, FileTree.node?, nodeAt, List.isEmpty_iff, if_neg named] at present
    rw [Table.mem_keys_iff, Table.mem_keys_iff, ← Option.ne_none_iff_exists',
      ← Option.ne_none_iff_exists']
    exact not_congr present
  have antisymm : Std.Antisymm fun a b : FullName => compare a b = .lt :=
    ⟨fun a b below above => by simp [Std.OrientedCmp.gt_of_lt below] at above⟩
  have irrefl : Std.Irrefl fun a b : FullName => compare a b = .lt := ⟨fun a => by simp⟩
  have same : e.tree.nodes.keys.filter (d.comesTo folder) =
      d.tree.nodes.keys.filter (d.comesTo folder) := by
    refine (e.tree.nodes.keys_ascending.filter _).eq_of_mem_iff
      (d.tree.nodes.keys_ascending.filter _) ?_
    intro full
    rw [List.mem_filter, List.mem_filter]
    exact and_congr_left (listed full)
  rw [reached, reached, comes, same]

theorem walks_inSight : Walks HoldsRules where
  distinct := distinct_filesInSight
  stable {d e} shape settings rules root := by
    change e.filesInSight root = d.filesInSight root
    cases located : d.locate root with
    | error fault => rw [filesInSight, filesInSight, shape.locate_eq, located]
    | ok folder =>
      have located' : e.locate root = .ok folder := (shape.locate_eq root).trans located
      rw [filesInSight_eq located, filesInSight_eq located', reached_eq shape settings rules]

-- The files that hold rules have no extension, and none without is taken by its extension.
theorem free_of_filtered (filtered : extensions ≠ [])
    (walk : d.collectFiles root extensions = .ok paths) :
    ∀ path ∈ paths, ∀ name, d.Names path name → ¬ HoldsRules d name := by
  rintro path among full names ⟨last, listed, ends⟩
  obtain ⟨member, accepted⟩ := (mem_collectFiles walk).1 among
  obtain ⟨folder, parts, located, entered, rfl⟩ := exists_reached member
  have filled := filled_of_accepted (locate_eq_ok_iff.1 located).1
  have ⟨inhabited, proper⟩ := mem_reached entered
  cases locate_descend located proper names.located
  rw [List.getLast?_append_of_ne_nil _ inhabited] at ends
  have bare : extensionOf? (root.descend parts) = none := by
    rw [extensionOf?, Path.extension?, Path.fileName?_descend filled proper ends,
      Option.bind_some, extension?_of_ruleNames last listed]
    rfl
  rw [accepts, bare] at accepted
  simp [filtered] at accepted

end Again

end LineLedger.Disk
