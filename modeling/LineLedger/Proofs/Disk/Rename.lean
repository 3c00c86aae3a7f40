import LineLedger.Proofs.Disk

set_option autoImplicit false

namespace LineLedger.Disk

structure KeepsFolders (d e : Disk) : Prop where
  working : e.working = d.working
  folders : ∀ name, d.node? name = some .folder → e.node? name = some .folder

theorem node?_dropNode {d : Disk} {name : FullName} (named : name ≠ []) (other : FullName) :
    (d.dropNode name).node? other = if name <+: other then none else d.node? other :=
  FileTree.node?_prune named other

namespace KeepsFolders

variable {d e : Disk} {name : FullName}

theorem refl (d : Disk) : KeepsFolders d d := ⟨rfl, fun _ folder => folder⟩

theorem setNode (keeps : KeepsFolders d e) (apart : d.node? name ≠ some .folder) (node : Node) :
    KeepsFolders d (e.setNode name node) where
  working := keeps.working
  folders other folder := by
    have elsewhere : other ≠ name := by
      rintro rfl
      exact apart folder
    rw [node?_setNode_of_ne elsewhere]
    exact keeps.folders other folder

theorem dropNode (keeps : KeepsFolders d e) (apart : d.node? name ≠ some .folder) :
    KeepsFolders d (e.dropNode name) where
  working := keeps.working
  folders other folder := by
    rw [node?_dropNode (ne_nil_of_not_folder apart), if_neg, keeps.folders other folder]
    rintro ⟨further, rfl⟩
    exact not_folder_below apart further folder

theorem follow_eq (keeps : KeepsFolders d e) {here there : FullName} {segments : List String}
    (reached : d.follow here segments = .ok there) : e.follow here segments = .ok there := by
  induction segments generalizing here with
  | nil => exact reached
  | cons segment rest ih =>
      rw [follow] at reached
      split at reached
      · cases reached
      · cases reached
      · rename_i folder
        rw [follow, keeps.folders here folder]
        split at reached
        · simp [*]
        · split at reached
          · simp [*]
          · split at reached
            · cases reached
            · simp [*]

theorem locate_eq (keeps : KeepsFolders d e) {p : Path} (located : d.locate p = .ok name) :
    e.locate p = .ok name := by
  obtain ⟨accepted, reached⟩ := locate_eq_ok_iff.1 located
  have reached := keeps.follow_eq reached
  rw [locate_eq_ok_iff]
  refine ⟨accepted, ?_⟩
  rw [← reached, origin, origin, keeps.working]

end KeepsFolders

section Entry

variable {d e : Disk} {p : Path} {x : Entry}

theorem free_of_splitLast {segments : List String} (free : ∀ s ∈ segments, '/' ∉ s.toList) :
    '/' ∉ (splitLast segments).2.toList := by
  rw [splitLast]
  split
  · simp
  · rename_i last before kept
    have member : last ∈ segments.reverse.dropWhile (· = "") := kept ▸ List.mem_cons_self ..
    exact free last (List.mem_reverse.1 ((List.dropWhile_sublist _).subset member))

theorem holds_of_entry (entered : d.entry p = .ok x) (plain : x.isNamed = true) :
    Holds d.tree.nodes x.fullName := by
  obtain ⟨-, -, folder, name⟩ := entry_eq_ok entered
  have free : '/' ∉ x.name.toList := by
    rw [← name]
    refine free_of_splitLast fun segment member => ?_
    obtain ⟨piece, listed, rfl⟩ := List.mem_map.1 member
    rw [String.toList_ofList]
    exact Path.free_of_mem_pieces listed
  have proper : ∀ part ∈ x.folder, IsName part := by
    by_cases root : x.folder = []
    · simp [root]
    · exact (FileTree.holds_of_node? folder root).proper
  refine ⟨by simp [Entry.fullName], fun part member => ?_, ?_⟩
  · rcases List.mem_append.1 member with above | own
    · exact proper part above
    · rw [List.mem_singleton.1 own]
      simp only [Entry.isNamed, Bool.and_eq_true, decide_eq_true_eq] at plain
      exact ⟨plain.1.1, plain.1.2, plain.2, free⟩
  · rw [Entry.fullName, List.dropLast_concat]
    exact folder

theorem createFolder_eq_ok (created : d.createFolder p = .ok e) :
    ∃ name, Holds d.tree.nodes name ∧ d.node? name = none ∧ e = d.setNode name .folder := by
  rw [createFolder, bind_eq_ok] at created
  obtain ⟨x, entered, created⟩ := created
  split at created
  · cases created
  · rename_i named
    obtain ⟨found, looked, created⟩ := bind_eq_ok.1 created
    split at created
    · cases created
    · cases created
      exact ⟨x.fullName, holds_of_entry entered (by simpa using named), (lookUp_eq_ok looked).2, rfl⟩

end Entry

section Overwrite

variable {d e : Disk} {p : Path} {text : String}

theorem overwrite_eq_ok (written : d.overwrite p text = .ok e) :
    ∃ name isLocked, d.locate p = .ok name ∧ d.node? name ≠ some .folder ∧
      Holds d.tree.nodes name ∧ e = d.setNode name (.file (.text text) isLocked) := by
  rw [overwrite, bind_eq_ok] at written
  obtain ⟨⟨name, content, isLocked⟩, opened, written⟩ := written
  cases written
  obtain ⟨x, entered, plain, -, -, apart, same⟩ := openForWriting_eq_ok opened
  exact ⟨name, isLocked, locate_of_openForWriting opened, same ▸ apart,
    same ▸ holds_of_entry entered plain, rfl⟩

theorem find_overwrite (written : d.overwrite p text = .ok e) :
    ∃ name isLocked, e.find p = .ok (name, .file (.text text) isLocked) := by
  obtain ⟨name, isLocked, located, apart, holds, rfl⟩ := overwrite_eq_ok written
  have keeps := (KeepsFolders.refl d).setNode apart (.file (.text text) isLocked)
  refine ⟨name, isLocked, find_eq_ok_iff.2 ⟨keeps.locate_eq located, ?_⟩⟩
  rw [node?_setNode_of_holds holds apart, if_pos rfl]

end Overwrite

section Moved

variable {d e : Disk} {here there : FullName} {content : Content} {isLocked : Bool}

theorem replaceEntry_file (file : d.node? here = some (.file content isLocked))
    (replaced : d.replaceEntry here there (.file content isLocked) = .ok e) :
    d.node? there ≠ some .folder ∧
      e = (d.dropNode here).setNode there (.file content isLocked) := by
  have moved : d.moveFrom here there ((here, .file content isLocked) :: d.below here) =
      (d.dropNode here).setNode there (.file content isLocked) := by
    have none : d.below here = [] := below_eq_nil (by simp [file])
    simp [none, moveFrom]
  rw [replaceEntry, moved] at replaced
  split at replaced
  · rename_i free
    cases replaced
    exact ⟨by simp [free], rfl⟩
  · cases replaced
  · rename_i other
    cases replaced
    exact ⟨by simp [other], rfl⟩

theorem node?_dropNode_file (apart : d.node? here ≠ some .folder) (other : FullName) :
    (d.dropNode here).node? other = if other = here then none else d.node? other := by
  rw [node?_dropNode (ne_nil_of_not_folder apart)]
  by_cases same : other = here
  · simp [same]
  · rw [if_neg same]
    split
    · rename_i under
      cases found : d.node? other with
      | none => rfl
      | some node =>
          have named : other ≠ [] := by
            rintro rfl
            exact same (List.prefix_nil.1 under).symm
          rw [node?, FileTree.node?, nodeAt, if_neg (by simpa using named),
            Table.get?_eq_some_iff] at found
          have listed : (other, node) ∈ d.below here := by
            simp [below, FileTree.below, found, under, same]
          rw [below_eq_nil apart] at listed
          cases listed
    · rfl

variable (source : d.node? here ≠ some .folder) (target : d.node? there ≠ some .folder)

include source target

theorem keepsFolders_moved (node : Node) : KeepsFolders d ((d.dropNode here).setNode there node) :=
  ((KeepsFolders.refl d).dropNode source).setNode target node

theorem node?_moved (holds : Holds d.tree.nodes there) (node : Node) (other : FullName) :
    ((d.dropNode here).setNode there node).node? other =
      if other = there then some node else if other = here then none else d.node? other := by
  have keeps := (KeepsFolders.refl d).dropNode source
  have free : (d.dropNode here).node? there ≠ some .folder := by
    rw [node?_dropNode_file source]
    split
    · exact nofun
    · exact target
  have stands : Holds (d.dropNode here).tree.nodes there :=
    ⟨holds.named, holds.proper, keeps.folders _ holds.around⟩
  rw [node?_setNode_of_holds stands free, node?_dropNode_file source]

end Moved

section Rename

variable {d e : Disk} {source target : Path}

theorem rename_eq_ok (renamed : d.rename source target = .ok e) :
    ∃ here there node, d.entry source = .ok here ∧ d.entry target = .ok there ∧
      here.isNamed = true ∧ there.isNamed = true ∧
      ¬ here.name.utf8ByteSize > longestName ∧ ¬ there.name.utf8ByteSize > longestName ∧
      d.node? here.fullName = some node ∧
      (node ≠ .folder → endsInSlash source = false ∧ endsInSlash target = false) ∧
      (here.fullName = there.fullName ∧ e = d ∨
        here.fullName ≠ there.fullName ∧
          d.replaceEntry here.fullName there.fullName node = .ok e) := by
  rw [rename] at renamed
  split at renamed
  · cases renamed
  · obtain ⟨here, first, renamed⟩ := bind_eq_ok.1 renamed
    obtain ⟨there, second, renamed⟩ := bind_eq_ok.1 renamed
    split at renamed
    · cases renamed
    · rename_i named
      simp only [Bool.or_eq_true, Bool.not_eq_true', not_or, Bool.not_eq_false] at named
      obtain ⟨found, looked, renamed⟩ := bind_eq_ok.1 renamed
      split at renamed
      · cases renamed
      · rename_i node
        obtain ⟨short, present⟩ := lookUp_eq_ok looked
        obtain ⟨_, other, renamed⟩ := bind_eq_ok.1 renamed
        refine ⟨here, there, node, first, second, named.1, named.2, short, (lookUp_eq_ok other).1,
          present, ?_⟩
        split at renamed
        · cases renamed
        · rename_i slash
          refine ⟨fun file => ?_, ?_⟩
          · simpa [file] using slash
          · split at renamed
            · rename_i same
              cases renamed
              exact .inl ⟨same, rfl⟩
            · rename_i apart
              split at renamed
              · cases renamed
              · split at renamed
                · cases renamed
                · exact .inr ⟨apart, renamed⟩

theorem find_rename {name : FullName} {content : Content} {isLocked : Bool}
    (found : d.find source = .ok (name, .file content isLocked))
    (renamed : d.rename source target = .ok e) :
    ∃ there, e.find target = .ok (there, .file content isLocked) := by
  obtain ⟨here, there, node, first, second, -, named, -, short, present, slash, done⟩ :=
    rename_eq_ok renamed
  obtain ⟨x, entered, -, -, -, apart, rfl⟩ := openForWriting_eq_ok (openForWriting_eq found)
  cases first.symm.trans entered
  obtain ⟨-, file⟩ := find_eq_ok_iff.1 found
  cases file.symm.trans present
  have reached := locate_of_entry second named (slash nofun).2 short
  rcases done with ⟨same, rfl⟩ | ⟨-, replaced⟩
  · exact ⟨here.fullName, find_eq_ok_iff.2 ⟨same ▸ reached, file⟩⟩
  · obtain ⟨free, rfl⟩ := replaceEntry_file file replaced
    have moved := node?_moved apart free (holds_of_entry second named) (.file content isLocked)
      there.fullName
    rw [if_pos rfl] at moved
    exact ⟨there.fullName, find_eq_ok_iff.2
      ⟨(keepsFolders_moved apart free _).locate_eq reached, moved⟩⟩

end Rename

end LineLedger.Disk
