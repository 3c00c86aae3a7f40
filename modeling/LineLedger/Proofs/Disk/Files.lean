import LineLedger.Proofs.Disk.Rename

set_option autoImplicit false

namespace LineLedger.Disk

def file? (d : Disk) (name : FullName) : Option (Content × Bool) :=
  match d.node? name with
  | some (.file content isLocked) => some (content, isLocked)
  | _ => none

def SameFilesBut (names : List FullName) (d e : Disk) : Prop :=
  ∀ name, name ∉ names → e.file? name = d.file? name

section Files

variable {d e f : Disk} {name : FullName} {content : Content} {isLocked : Bool}

theorem file?_of_node? (found : d.node? name = some (.file content isLocked)) :
    d.file? name = some (content, isLocked) := by
  rw [file?, found]

theorem file?_congr {other : FullName} (same : e.node? name = d.node? other) :
    e.file? name = d.file? other := by
  rw [file?, file?, same]

theorem file?_setNode (holds : Holds d.tree.nodes name) (apart : d.node? name ≠ some .folder)
    (other : FullName) :
    (d.setNode name (.file content isLocked)).file? other =
      if other = name then some (content, isLocked) else d.file? other := by
  have found := node?_setNode_of_holds holds apart (.file content isLocked) other
  split at found
  · rename_i here
    rw [if_pos here, file?_of_node? found]
  · rename_i apart
    rw [if_neg apart, file?_congr found]

theorem SameFilesBut.refl (names : List FullName) (d : Disk) : SameFilesBut names d d :=
  fun _ _ => rfl

theorem SameFilesBut.trans {first second : List FullName} (left : SameFilesBut first d e)
    (right : SameFilesBut second e f) : SameFilesBut (first ++ second) d f := by
  intro name apart
  rw [List.mem_append, not_or] at apart
  exact (right name apart.2).trans (left name apart.1)

end Files

section Create

variable {d e : Disk}

theorem file?_createFolder {p : Path} (created : d.createFolder p = .ok e) (name : FullName) :
    e.file? name = d.file? name := by
  obtain ⟨made, holds, free, rfl⟩ := createFolder_eq_ok created
  have now := node?_setNode_of_holds holds (by simp [free]) .folder name
  split at now
  · rename_i here
    rw [here] at now ⊢
    rw [file?, file?, now, free]
  · exact file?_congr now

theorem files_createFolders (d : Disk) (p : Path) : SameFilesBut [] d (d.createFolders p).2 := by
  intro name apart
  rw [createFolders]
  -- By the number of folders that are tried; where one cannot be made, those before it stay.
  generalize p.segments.length + 1 = depth
  induction depth generalizing p with
  | zero => rfl
  | succ depth ih =>
      rw [createFoldersWithin]
      split
      · rfl
      · split
        · exact file?_createFolder ‹_› name
        · split
          rename_i around f grown
          have same : f.file? name = d.file? name := by
            split at grown
            · exact congrArg (fun outcome => outcome.2.file? name) grown ▸ ih _
            · cases grown
              rfl
          split
          · exact same
          · split
            · exact (file?_createFolder ‹_› name).trans same
            · exact same
        · rfl

end Create

section Overwrite

variable {d e : Disk} {p : Path} {text : String}

theorem file?_overwrite (written : d.overwrite p text = .ok e) :
    ∃ name isLocked, e.locate p = .ok name ∧ e.node? name = some (.file (.text text) isLocked) ∧
      SameFilesBut [name] d e := by
  obtain ⟨name, isLocked, located, apart, holds, rfl⟩ := overwrite_eq_ok written
  have keeps := (KeepsFolders.refl d).setNode apart (.file (.text text) isLocked)
  refine ⟨name, isLocked, keeps.locate_eq located, ?_, fun other elsewhere => ?_⟩
  · rw [node?_setNode_of_holds holds apart, if_pos rfl]
  · rw [file?_setNode holds apart, if_neg (by simpa using elsewhere)]

theorem rename_self {name : FullName} {content : Content} {isLocked : Bool}
    (found : e.find p = .ok (name, .file content isLocked)) : e.rename p p = .ok e := by
  obtain ⟨x, entered, named, slash, short, -, rfl⟩ :=
    openForWriting_eq_ok (openForWriting_eq found)
  have spelled : holdsNull p = false := by
    have accepted := (entry_eq_ok entered).1
    cases null : holdsNull p with
    | false => rfl
    | true => simp [acceptSpelling, null] at accepted
  have looked : e.lookUp x = .ok (some (.file content isLocked)) := by
    rw [lookUp, if_neg short, (find_eq_ok_iff.1 found).2]
  simp [rename, spelled, entered, named, looked, slash, bind, Except.bind]

end Overwrite

section Rename

variable {d e : Disk} {source target : Path} {here there : FullName} {content : Content}
  {isLocked : Bool}

theorem file?_rename (located : d.locate source = .ok here)
    (file : d.node? here = some (.file content isLocked))
    (renamed : d.rename source target = .ok e) :
    ∃ there, e.locate source = .ok here ∧ e.locate target = .ok there ∧
      ∀ other, e.file? other =
        if other = there then some (content, isLocked)
        else if other = here then none else d.file? other := by
  obtain ⟨start, stop, node, first, second, -, named, -, short, present, slash, done⟩ :=
    rename_eq_ok renamed
  have found := find_eq_ok_iff.2 ⟨located, file⟩
  obtain ⟨x, entered, -, -, -, apart, rfl⟩ := openForWriting_eq_ok (openForWriting_eq found)
  cases first.symm.trans entered
  cases file.symm.trans present
  have reached := locate_of_entry second named (slash nofun).2 short
  refine ⟨stop.fullName, ?_⟩
  -- The two paths may be spellings of one name, and then nothing is moved.
  rcases done with ⟨same, rfl⟩ | ⟨-, replaced⟩
  · refine ⟨located, reached, fun other => ?_⟩
    rw [← same]
    split
    · rename_i here
      rw [here, file?_of_node? file]
    · rfl
  · obtain ⟨free, rfl⟩ := replaceEntry_file file replaced
    have keeps := keepsFolders_moved apart free (.file content isLocked)
    refine ⟨keeps.locate_eq located, keeps.locate_eq reached, fun other => ?_⟩
    have moved := node?_moved apart free (holds_of_entry second named) (.file content isLocked)
      other
    by_cases arrived : other = stop.fullName
    · simp only [if_pos arrived] at moved ⊢
      exact file?_of_node? moved
    · by_cases left : other = start.fullName
      · simp only [if_neg arrived, if_pos left] at moved ⊢
        simp [file?, moved]
      · simp only [if_neg arrived, if_neg left] at moved ⊢
        exact file?_congr moved

end Rename

end LineLedger.Disk
