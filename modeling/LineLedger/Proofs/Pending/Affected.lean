import LineLedger.Proofs.Pending.Calls

set_option autoImplicit false

namespace LineLedger

namespace Pending

variable {p : Pending}

theorem Sound.listed_record (sound : p.Sound) (path : Path) {change : Change}
    (ended : change.Ended) (file : Path) :
    file ∈ (p.record path change).affectedFiles ↔
      file ∈ p.affectedFiles ∨ file = path ∧ ¬ ∃ other ∈ p.affectedFiles, other.Same path := by
  rw [(sound.record path ended).listed_iff, sound.listed_iff, sound.mem_affectedFiles,
    sound.get?_eq, get?_sets_record]
  by_cases here : file.route = path.route
  · rw [if_pos here, here]
    cases found : p.sets.get? path.route with
    | none => simp [ChangeSet.record, ChangeSet.empty, eq_comm]
    | some set => simp [ChangeSet.record]
  · have other : file ≠ path := fun same => here (congrArg Path.route same)
    rw [if_neg here]
    simp [other]

theorem Sound.listed_discard (sound : p.Sound) (path file : Path) :
    file ∈ (p.discard path).2.affectedFiles ↔ file ∈ p.affectedFiles ∧ ¬ file.Same path := by
  rw [(sound.discard path).listed_iff, sound.listed_iff, get?_sets_discard, Path.Same]
  by_cases here : file.route = path.route <;> simp [here]

theorem affectedFiles_of_size (none : p.size = 0) : p.affectedFiles = [] := by
  rw [size] at none
  rw [affectedFiles]
  generalize p.sets.values = sets at none ⊢
  induction sets with
  | nil => rfl
  | cons set rest ih =>
      rw [List.foldr_cons, Nat.add_eq_zero_iff] at none
      have empty : set.isEmpty = true := List.isEmpty_iff_length_eq_zero.2 none.1
      rw [List.filter_cons_of_neg (by simp [empty]), ih none.2]

section Drop

def dropAll (p : Pending) (files : List Path) : Pending :=
  files.foldl (fun p file => (p.discard file).2) p

theorem Sound.dropAll (sound : p.Sound) (files : List Path) : (p.dropAll files).Sound := by
  induction files generalizing p with
  | nil => exact sound
  | cons file rest ih => exact ih (sound.discard file)

theorem Sound.listed_dropAll (sound : p.Sound) (files : List Path) (file : Path) :
    file ∈ (p.dropAll files).affectedFiles ↔
      file ∈ p.affectedFiles ∧ ∀ dropped ∈ files, ¬ file.Same dropped := by
  induction files generalizing p with
  | nil => simp [Pending.dropAll]
  | cons dropped rest ih =>
      rw [Pending.dropAll, List.foldl_cons]
      refine (ih (sound.discard dropped)).trans ?_
      rw [sound.listed_discard, List.forall_mem_cons, and_assoc]

theorem Sound.get?_dropAll (sound : p.Sound) {files : List Path} {file : Path}
    (dropped : file ∈ files) : (p.dropAll files).get? file = none := by
  have absent : ¬ ∃ set, (p.dropAll files).get? file = some set := by
    rw [← (sound.dropAll files).mem_affectedFiles]
    rintro ⟨other, listed, same⟩
    exact ((sound.listed_dropAll files other).1 listed).2 file dropped same
  exact Option.eq_none_iff_forall_ne_some.2 fun set found => absent ⟨set, found⟩

theorem Sound.nodup_affectedFiles (sound : p.Sound) : p.affectedFiles.Nodup :=
  sound.affectedFiles_routes.imp fun apart same => apart (congrArg Path.route same)

theorem Sound.perm_dropAll (sound : p.Sound) {files : List Path} (once : files.Nodup)
    (listed : ∀ file ∈ files, file ∈ p.affectedFiles) :
    ((p.dropAll files).affectedFiles ++ files).Perm p.affectedFiles := by
  refine (List.perm_ext_iff_of_nodup ?_ sound.nodup_affectedFiles).2 fun file => ?_
  · refine List.nodup_append.2 ⟨(sound.dropAll files).nodup_affectedFiles, once, ?_⟩
    rintro kept member dropped gone rfl
    exact ((sound.listed_dropAll files kept).1 member).2 kept gone rfl
  · rw [List.mem_append, sound.listed_dropAll]
    constructor
    · rintro (⟨member, _⟩ | gone)
      · exact member
      · exact listed file gone
    · intro member
      by_cases gone : file ∈ files
      · exact .inr gone
      · refine .inl ⟨member, fun dropped other same => gone ?_⟩
        exact sound.eq_of_same member (listed dropped other) same ▸ other

end Drop

section Rename

variable {rule : List Char → Option (List Char)}

theorem Sound.renameLines (sound : p.Sound) (path : Path) (first : Nat) (lines : List String) :
    (renameLines rule path first p lines).2.Sound := by
  induction lines generalizing first p with
  | nil => exact sound
  | cons line rest ih =>
      rw [Pending.renameLines]
      cases rule line.toList with
      | none => exact ih sound (first + 1)
      | some new =>
          have ended := Change.ended_make first (some line) (some (String.ofList new)) .edit
          exact ih (sound.record path ended) (first + 1)

theorem Sound.listed_renameLines (sound : p.Sound) (path : Path) (first : Nat)
    (lines : List String) {file : Path}
    (listed : file ∈ (Pending.renameLines rule path first p lines).2.affectedFiles) :
    file ∈ p.affectedFiles ∨ file = path ∧ (Pending.renameLines rule path first p lines).1 ≠ 0 := by
  induction lines generalizing first p with
  | nil => exact .inl listed
  | cons line rest ih =>
      rw [Pending.renameLines] at listed ⊢
      cases changed : rule line.toList with
      | none =>
          rw [changed] at listed
          exact ih sound (first + 1) listed
      | some new =>
          rw [changed] at listed
          have ended := Change.ended_make first (some line) (some (String.ofList new)) .edit
          rcases ih (sound.record path ended) (first + 1) listed with before | ⟨here, _⟩
          · rcases (sound.listed_record path ended file).1 before with before | ⟨here, _⟩
            · exact .inl before
            · exact .inr ⟨here, Nat.succ_ne_zero _⟩
          · exact .inr ⟨here, Nat.succ_ne_zero _⟩

theorem Sound.listed_renameWith (sound : p.Sound) (d : Disk) (paths : List Path) {file : Path}
    (listed : file ∈ (renameWith rule d p paths).2.affectedFiles) :
    file ∈ p.affectedFiles ∨ file ∈ (renameWith rule d p paths).1.files := by
  induction paths generalizing p with
  | nil => exact .inl listed
  | cons path rest ih =>
      rw [renameWith] at listed ⊢
      cases read : d.readText path with
      | error failure =>
          rw [read] at listed
          exact ih sound listed
      | ok text =>
          rw [read] at listed
          rcases ih (sound.renameLines path 0 (Text.lines text)) listed with before | later
          · rcases sound.listed_renameLines path 0 (Text.lines text) before with
              before | ⟨rfl, some⟩
            · exact .inl before
            · simp [some]
          · refine .inr ?_
            simp only
            split
            · exact later
            · exact List.mem_cons_of_mem _ later

theorem readable_renameWith (d : Disk) (p : Pending) (paths : List Path) :
    ∀ file ∈ (renameWith rule d p paths).1.files, ∃ text, d.readText file = .ok text := by
  induction paths generalizing p with
  | nil => exact fun _ member => absurd member List.not_mem_nil
  | cons path rest ih =>
      rw [renameWith]
      cases read : d.readText path with
      | error failure => exact ih p
      | ok text =>
          simp only
          split
          · exact ih _
          · exact List.forall_mem_cons.2 ⟨⟨text, read⟩, ih _⟩

theorem listed_rename (whole : Bool) (old new : String) (d : Disk) (paths : List Path) {file : Path}
    (listed : file ∈ (rename whole old new d .empty paths).2.affectedFiles) :
    file ∈ (rename whole old new d .empty paths).1.files := by
  rw [rename] at listed ⊢
  split at listed
  · cases listed
  · rename_i filled
    rw [if_neg filled]
    exact (sound_empty.listed_renameWith d paths listed).resolve_left List.not_mem_nil

theorem readable_rename (whole : Bool) (old new : String) (d : Disk) (p : Pending)
    (paths : List Path) :
    ∀ file ∈ (rename whole old new d p paths).1.files, ∃ text, d.readText file = .ok text := by
  rw [rename]
  split
  · exact fun _ member => absurd member List.not_mem_nil
  · exact readable_renameWith d p paths

end Rename

end Pending

namespace Script

open Pending

theorem ended_change (entry : ScriptEntry) : entry.change.Ended :=
  Change.ended_make (entry.line - 1) none entry.content entry.kind

theorem listed_foldl {p : Pending} (sound : p.Sound) (seen : List Route)
    (known : ∀ route, route ∈ seen ↔ ∃ other ∈ p.affectedFiles, other.route = route)
    (entries : List ScriptEntry) (file : Path) :
    file ∈ (entries.foldl (fun p e => p.record e.file e.change) p).affectedFiles ↔
      file ∈ p.affectedFiles ∨ file ∈ distinctFrom seen (entries.map ScriptEntry.file) := by
  induction entries generalizing p seen with
  | nil => simp [distinctFrom]
  | cons entry rest ih =>
      have next := sound.record entry.file (ended_change entry)
      have listed := sound.listed_record entry.file (ended_change entry)
      rw [List.foldl_cons, List.map_cons, distinctFrom]
      by_cases before : entry.file.route ∈ seen
      · have present : ∃ other ∈ p.affectedFiles, other.Same entry.file := (known _).1 before
        have same : ∀ other, other ∈ (p.record entry.file entry.change).affectedFiles ↔
            other ∈ p.affectedFiles := fun other => by simp [listed, present]
        rw [if_pos (List.contains_iff_mem.2 before), ih next seen, same]
        simp only [same, known, implies_true]
      · have absent : ¬ ∃ other ∈ p.affectedFiles, other.Same entry.file := mt (known _).2 before
        have added : ∀ other, other ∈ (p.record entry.file entry.change).affectedFiles ↔
            other ∈ p.affectedFiles ∨ other = entry.file := fun other => by simp [listed, absent]
        rw [if_neg (mt List.contains_iff_mem.1 before), ih next (entry.file.route :: seen), added,
          List.mem_cons, or_assoc]
        intro route
        simp only [List.mem_cons, known, added, or_and_right, exists_or, exists_eq_left,
          or_comm, eq_comm]

theorem distinct_distinctFrom (seen : List Route) (paths : List Path) :
    (∀ file ∈ distinctFrom seen paths, file.route ∉ seen) ∧
      (distinctFrom seen paths).Pairwise fun a b => ¬ a.Same b := by
  induction paths generalizing seen with
  | nil => exact ⟨fun _ member => absurd member List.not_mem_nil, .nil⟩
  | cons path rest ih =>
      rw [distinctFrom]
      by_cases before : path.route ∈ seen
      · rw [if_pos (List.contains_iff_mem.2 before)]
        exact ih seen
      · have ⟨fresh, apart⟩ := ih (path.route :: seen)
        rw [if_neg (mt List.contains_iff_mem.1 before)]
        refine ⟨List.forall_mem_cons.2 ⟨before, fun file member => ?_⟩,
          List.pairwise_cons.2 ⟨fun file member same => ?_, apart⟩⟩
        · exact fun listed => fresh file member (List.mem_cons_of_mem _ listed)
        · exact fresh file member (List.mem_cons.2 (.inl same.symm))

theorem listed_recordInto (s : Script) (file : Path) :
    file ∈ (s.recordInto .empty).affectedFiles ↔ file ∈ s.files := by
  have none : Pending.empty.affectedFiles = [] := rfl
  rw [recordInto, listed_foldl sound_empty [] (by simp [none]), none, files]
  simp

theorem nodup_files (s : Script) : s.files.Nodup :=
  (distinct_distinctFrom [] _).2.imp fun apart same => apart (congrArg Path.route same)

end Script

end LineLedger
