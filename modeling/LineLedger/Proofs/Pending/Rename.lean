import LineLedger.Proofs.Change.Applied
import LineLedger.Proofs.Pending.Affected
import Mathlib.Data.List.Pairwise

set_option autoImplicit false

namespace LineLedger

namespace Change

variable {changes : List Change} {lines : List String}

-- Shown and applied changes agree here, and what is shown is known line by line.
theorem getElem?_applyAll_within
    (within : ∀ c ∈ changes, c.line < lines.length ∧ c.kind ≠ .insert) (place : Nat) :
    (changes.foldl applyTo lines)[place]? =
      ((latestAt changes place).map replacement).or lines[place]? := by
  rw [← Table.get?_enumerate, ← showAll_within within, ChangeSet.get?_showAll,
    Table.get?_enumerate]

end Change

namespace Pending

section Records

variable {p : Pending} {path : Path} {changes : List Change}

theorem proper_recorded (ended : ∀ c ∈ changes, c.Ended) :
    ∀ event ∈ changes.map (Event.recorded path), event.Proper := by
  intro event member
  obtain ⟨c, listed, rfl⟩ := List.mem_map.1 member
  exact ended c listed

theorem changeAt_recorded (sound : p.Sound) (ended : ∀ c ∈ changes, c.Ended) (other : Path)
    (line : Nat) :
    ((changes.map (Event.recorded path)).foldl after p).changeAt other line =
      if other.Same path then (Change.latestAt changes line).or (p.changeAt other line)
      else p.changeAt other line := by
  induction changes generalizing p with
  | nil => simp [Change.latestAt]
  | cons c rest ih =>
      obtain ⟨here, later⟩ := List.forall_mem_cons.1 ended
      rw [List.map_cons, List.foldl_cons, after, ih (sound.record path here) later,
        changeAt_record sound path other here, Change.latestAt_cons]
      by_cases same : other.Same path
      · by_cases here : line = c.line
        · simp [same, here]
        · simp [same, here, Ne.symm here]
      · simp [same]

theorem Sound.perm_places_record (sound : p.Sound) {c : Change} (ended : c.Ended)
    (fresh : p.changeAt path c.line = none) :
    (p.record path c).places.Perm ((path.route, c.line) :: p.places) := by
  refine (List.perm_ext_iff_of_nodup (nodup_places _) ?_).2 fun ⟨route, line⟩ => ?_
  · refine List.nodup_cons.2 ⟨fun member => ?_, nodup_places p⟩
    obtain ⟨other, same, some⟩ := (sound.mem_places_iff _ _).1 member
    rw [sound.changeAt_eq, same, ← sound.changeAt_eq, fresh] at some
    cases some
  · rw [(sound.record path ended).mem_places_iff, List.mem_cons, Prod.mk.injEq,
      sound.mem_places_iff]
    simp only [changeAt_record sound path _ ended]
    constructor
    · rintro ⟨other, rfl, some⟩
      split at some
      · rename_i here
        exact .inl here
      · exact .inr ⟨other, rfl, some⟩
    · rintro (⟨rfl, rfl⟩ | ⟨other, rfl, some⟩)
      · exact ⟨path, rfl, by simp [Path.Same]⟩
      · refine ⟨other, rfl, ?_⟩
        split
        · rfl
        · exact some

theorem Sound.size_record (sound : p.Sound) {c : Change} (ended : c.Ended)
    (fresh : p.changeAt path c.line = none) : (p.record path c).size = p.size + 1 := by
  rw [← length_places, (sound.perm_places_record ended fresh).length_eq, List.length_cons,
    length_places]

theorem Sound.size_recorded (sound : p.Sound) (ended : ∀ c ∈ changes, c.Ended)
    (apart : changes.Pairwise fun a b => a.line < b.line)
    (fresh : ∀ c ∈ changes, p.changeAt path c.line = none) :
    ((changes.map (Event.recorded path)).foldl after p).size = p.size + changes.length := by
  induction changes generalizing p with
  | nil => rfl
  | cons c rest ih =>
      have ⟨here, later⟩ := List.forall_mem_cons.1 ended
      have ⟨first, free⟩ := List.forall_mem_cons.1 fresh
      have ⟨above, ordered⟩ := List.pairwise_cons.1 apart
      rw [List.map_cons, List.foldl_cons, after, ih (sound.record path here) later ordered,
        sound.size_record here first, List.length_cons]
      · omega
      · intro other member
        rw [changeAt_record sound path path here, if_neg fun same => ?_]
        · exact free other member
        · exact Nat.ne_of_gt (above other member) same.2

end Records

section Rename

variable {rule : List Char → Option (List Char)}

section Lines

def edit? (rule : List Char → Option (List Char)) (place : Nat) (line : String) : Option Change :=
  (rule line.toList).map fun new => .replacing place (some line) (String.ofList new)

theorem isSome_edit? (place : Nat) (line : String) :
    (edit? rule place line).isSome = (rule line.toList).isSome := Option.isSome_map

theorem renamed_cons (first : Nat) (line : String) (rest : List String) :
    renamed rule first (line :: rest) =
      (edit? rule first line).toList ++ renamed rule (first + 1) rest := by
  rw [renamed, List.zipIdx_cons, List.filterMap_cons, edit?, renamed]
  dsimp only
  cases rule line.toList <;> rfl

theorem line_edit? {place : Nat} {line : String} {c : Change}
    (made : edit? rule place line = some c) : c.line = place := by
  obtain ⟨new, _, rfl⟩ := Option.map_eq_some_iff.1 made
  rfl

theorem ended_edit? {place : Nat} {line : String} {c : Change}
    (made : edit? rule place line = some c) : c.Ended := by
  obtain ⟨new, _, rfl⟩ := Option.map_eq_some_iff.1 made
  exact Change.ended_make place (some line) (some (String.ofList new)) .edit

theorem mem_renamed {first : Nat} {lines : List String} {c : Change}
    (member : c ∈ renamed rule first lines) :
    first ≤ c.line ∧ ∃ line, edit? rule c.line line = some c := by
  obtain ⟨⟨line, place⟩, listed, made⟩ := List.mem_filterMap.1 member
  have here : c.line = place := line_edit? made
  exact ⟨here ▸ List.le_snd_of_mem_zipIdx listed, line, here ▸ made⟩

theorem ended_renamed (first : Nat) (lines : List String) :
    ∀ c ∈ renamed rule first lines, c.Ended := fun _ member =>
  (mem_renamed member).2.elim fun _ made => ended_edit? made

theorem sorted_renamed (first : Nat) (lines : List String) :
    (renamed rule first lines).Pairwise fun a b => a.line < b.line := by
  induction lines generalizing first with
  | nil => exact .nil
  | cons line rest ih =>
      rw [renamed_cons]
      refine List.pairwise_append.2 ⟨?_, ih (first + 1), fun a here b later => ?_⟩
      · cases edit? rule first line <;> simp
      · have place := line_edit? (Option.mem_toList.1 here)
        have below := (mem_renamed later).1
        omega

theorem length_renamed (first : Nat) (lines : List String) :
    (renamed rule first lines).length =
      lines.countP fun line => (rule line.toList).isSome := by
  induction lines generalizing first with
  | nil => rfl
  | cons line rest ih =>
      rw [renamed_cons, List.length_append, ih, List.countP_cons, edit?]
      cases rule line.toList <;> simp [Nat.add_comm]

theorem latestAt_edit? (place : Nat) (line : String) (other : Nat) :
    Change.latestAt (edit? rule place line).toList other =
      if place = other then edit? rule place line else none := by
  cases made : edit? rule place line with
  | none => simp [Change.latestAt]
  | some c => rw [Option.toList_some, Change.latestAt_singleton, line_edit? made]

theorem latestAt_renamed (rule : List Char → Option (List Char)) (first : Nat)
    (lines : List String) (place : Nat) :
    Change.latestAt (renamed rule first lines) (first + place) =
      lines[place]?.bind (edit? rule (first + place)) := by
  induction lines generalizing first place with
  | nil => rfl
  | cons line rest ih =>
      rw [renamed_cons, Change.latestAt_append, latestAt_edit?]
      cases place with
      | zero =>
          have above : Change.latestAt (renamed rule (first + 1) rest) first = none :=
            Change.latestAt_eq_none fun c member => Nat.ne_of_gt (mem_renamed member).1
          simp [above]
      | succ below =>
          have later := ih (first + 1) below
          rw [Nat.add_right_comm, Nat.add_assoc] at later
          rw [later, if_neg (by omega), Option.or_none, List.getElem?_cons_succ]

end Lines

section Files

variable {p : Pending}

def linesIn (d : Disk) (path : Path) : List String :=
  match d.readText path with
  | .error _ => []
  | .ok text => Text.lines text

def unread? (d : Disk) (path : Path) : Option (Path × Failure) :=
  match d.readText path with
  | .error failure => some (path, failure)
  | .ok _ => none

def reportOf (hit : List Char → Bool) (d : Disk) (paths : List Path) : RenameReport where
  edits := (paths.flatMap (linesIn d)).countP fun line => hit line.toList
  files := paths.filter fun path => (linesIn d path).any fun line => hit line.toList
  failed := paths.filterMap (unread? d)

theorem edits_reportOf_cons (hit : List Char → Bool) (d : Disk) (path : Path) (rest : List Path) :
    (reportOf hit d (path :: rest)).edits =
      ((linesIn d path).countP fun line => hit line.toList) + (reportOf hit d rest).edits := by
  rw [reportOf, reportOf, List.flatMap_cons, List.countP_append]

theorem renameLines_fst (path : Path) (first : Nat) (p : Pending) (lines : List String) :
    (renameLines rule path first p lines).1 =
      lines.countP fun line => (rule line.toList).isSome := by
  induction lines generalizing first p with
  | nil => rfl
  | cons line rest ih =>
      rw [renameLines, List.countP_cons]
      cases rule line.toList with
      | none => simpa using ih (first + 1) p
      | some new => simpa using ih (first + 1) _

theorem renameWith_fst (d : Disk) (p : Pending) (paths : List Path) :
    (renameWith rule d p paths).1 = reportOf (fun line => (rule line).isSome) d paths := by
  induction paths generalizing p with
  | nil => rfl
  | cons path rest ih =>
      rw [renameWith]
      cases read : d.readText path with
      | error failure => simp [ih, reportOf, linesIn, unread?, read]
      | ok text =>
          have none : (Text.lines text).countP (fun line => (rule line.toList).isSome) = 0 ↔
              ((Text.lines text).any fun line => (rule line.toList).isSome) = false := by
            rw [List.countP_eq_zero, List.any_eq_false]
          simp only [ih, renameLines_fst, reportOf, List.flatMap_cons, List.countP_append,
            List.filterMap_cons, List.filter_cons, linesIn, unread?, read, none]
          cases (Text.lines text).any fun line => (rule line.toList).isSome <;> rfl

def renameFile (rule : List Char → Option (List Char)) (d : Disk) (p : Pending) (path : Path) :
    Pending :=
  ((renamed rule 0 (linesIn d path)).map (Event.recorded path)).foldl after p

theorem renamedIn_eq (rule : List Char → Option (List Char)) (d : Disk) (path : Path) :
    renamedIn rule d path =
      (renamed rule 0 (linesIn d path)).map (Event.recorded path) := by
  rw [renamedIn, linesIn]
  cases d.readText path <;> rfl

theorem renameWith_snd (d : Disk) (p : Pending) (paths : List Path) :
    (renameWith rule d p paths).2 = paths.foldl (renameFile rule d) p := by
  rw [renameWith_eq, funext (renamedIn_eq rule d), List.foldl_flatMap]
  rfl

theorem Sound.renameFile (sound : p.Sound) (rule : List Char → Option (List Char)) (d : Disk)
    (path : Path) : (p.renameFile rule d path).Sound :=
  sound_foldl_after sound (proper_recorded (ended_renamed 0 _))

theorem changeAt_renameFile (sound : p.Sound) (d : Disk) (path other : Path) (line : Nat) :
    (p.renameFile rule d path).changeAt other line =
      if other.Same path then
        ((linesIn d path)[line]?.bind (edit? rule line)).or (p.changeAt other line)
      else p.changeAt other line := by
  have latest := latestAt_renamed rule 0 (linesIn d path) line
  rw [Nat.zero_add] at latest
  rw [Pending.renameFile, changeAt_recorded sound (ended_renamed 0 _), latest]

theorem Sound.renameFiles (sound : p.Sound) (rule : List Char → Option (List Char)) (d : Disk)
    (paths : List Path) : (paths.foldl (Pending.renameFile rule d) p).Sound := by
  induction paths generalizing p with
  | nil => exact sound
  | cons path rest ih => exact ih (sound.renameFile rule d path)

theorem Sound.renameWith (sound : p.Sound) (rule : List Char → Option (List Char)) (d : Disk)
    (paths : List Path) : (Pending.renameWith rule d p paths).2.Sound := by
  rw [renameWith_snd]
  exact sound.renameFiles rule d paths

theorem changeAt_renameFiles_of_apart (sound : p.Sound) (d : Disk) {paths : List Path}
    {other : Path} (apart : ∀ path ∈ paths, ¬ other.Same path) (line : Nat) :
    (paths.foldl (Pending.renameFile rule d) p).changeAt other line = p.changeAt other line := by
  induction paths generalizing p with
  | nil => rfl
  | cons path rest ih =>
      have ⟨here, later⟩ := List.forall_mem_cons.1 apart
      rw [List.foldl_cons, ih (sound.renameFile rule d path) later, changeAt_renameFile sound,
        if_neg here]

theorem changeAt_renameFiles (sound : p.Sound) (d : Disk) {paths : List Path}
    (distinct : paths.Pairwise fun a b => ¬ a.Same b) {path : Path} (listed : path ∈ paths)
    (line : Nat) :
    (paths.foldl (Pending.renameFile rule d) p).changeAt path line =
      ((linesIn d path)[line]?.bind (edit? rule line)).or (p.changeAt path line) := by
  induction paths generalizing p with
  | nil => cases listed
  | cons first rest ih =>
      have ⟨apart, later⟩ := List.pairwise_cons.1 distinct
      have next := sound.renameFile rule d first
      rw [List.foldl_cons]
      rcases List.mem_cons.1 listed with rfl | member
      · rw [changeAt_renameFiles_of_apart next d apart, changeAt_renameFile sound,
          if_pos (show path.Same path from rfl)]
      · rw [ih next later member, changeAt_renameFile sound, if_neg fun same => ?_]
        exact apart path member same.symm

theorem size_renameFiles (sound : p.Sound) (d : Disk) {paths : List Path}
    (distinct : paths.Pairwise fun a b => ¬ a.Same b)
    (idle : ∀ path ∈ paths, ∀ line, p.changeAt path line = none) :
    (paths.foldl (Pending.renameFile rule d) p).size =
      p.size + (reportOf (fun line => (rule line).isSome) d paths).edits := by
  induction paths generalizing p with
  | nil => rfl
  | cons first rest ih =>
      have ⟨apart, later⟩ := List.pairwise_cons.1 distinct
      have ⟨here, others⟩ := List.forall_mem_cons.1 idle
      have next := sound.renameFile rule d first
      have added : (p.renameFile rule d first).size =
          p.size + (linesIn d first).countP fun line => (rule line.toList).isSome := by
        rw [Pending.renameFile, sound.size_recorded (ended_renamed 0 _) (sorted_renamed 0 _)
          fun c _ => here c.line, length_renamed]
      have still : ∀ path ∈ rest, ∀ line, (p.renameFile rule d first).changeAt path line = none := by
        intro path member line
        rw [changeAt_renameFile sound, if_neg fun same => apart path member same.symm]
        exact others path member line
      rw [List.foldl_cons, ih next later still, added, edits_reportOf_cons, Nat.add_assoc]

theorem length_renamedIn (d : Disk) (paths : List Path) :
    (paths.flatMap (renamedIn rule d)).length =
      (reportOf (fun line => (rule line).isSome) d paths).edits := by
  induction paths with
  | nil => rfl
  | cons path rest ih =>
      rw [List.flatMap_cons, List.length_append, ih, renamedIn_eq, List.length_map, length_renamed,
        edits_reportOf_cons]

end Files

section File

variable {p : Pending} {d : Disk} {paths : List Path} {path : Path}

def renamedLine (rule : List Char → Option (List Char)) (line : String) : String :=
  match rule line.toList with
  | none => line
  | some new => Text.terminated (String.ofList new)

theorem apply_eq_map {set : ChangeSet} (orderly : set.Orderly) {lines : List String}
    (edits : ∀ place, set.get? place = lines[place]?.bind (edit? rule place)) :
    set.apply lines = lines.map (renamedLine rule) := by
  have within : ∀ c ∈ set.toList, c.line < lines.length ∧ c.kind ≠ .insert := by
    intro c member
    have found := (orderly.mem_toList c).1 member
    rw [edits] at found
    obtain ⟨line, present, made⟩ := Option.bind_eq_some_iff.1 found
    obtain ⟨new, _, same⟩ := Option.map_eq_some_iff.1 made
    exact ⟨(List.getElem?_eq_some_iff.1 present).1, by rw [← same]; nofun⟩
  apply List.ext_getElem?
  intro place
  rw [ChangeSet.apply, Change.getElem?_applyAll_within within, orderly.latestAt_toList, edits,
    List.getElem?_map]
  cases lines[place]? with
  | none => rfl
  | some line =>
      simp only [Option.bind_some, Option.map_some, edit?, renamedLine]
      cases rule line.toList <;> rfl

variable (sound : p.Sound) (distinct : paths.Pairwise fun a b => ¬ a.Same b)
  (listed : path ∈ paths) (idle : p.get? path = none)

include sound distinct listed idle

theorem changeAt_renameWith (line : Nat) :
    (renameWith rule d p paths).2.changeAt path line =
      (linesIn d path)[line]?.bind (edit? rule line) := by
  have none : p.changeAt path line = none := by rw [changeAt, idle, Option.bind_none]
  rw [renameWith_snd, changeAt_renameFiles sound d distinct listed, none, Option.or_none]

variable (rule d) in
theorem exists_get?_renameWith :
    (∃ set, (renameWith rule d p paths).2.get? path = some set) ↔
      ∃ line ∈ linesIn d path, (rule line.toList).isSome = true := by
  rw [← (sound.renameWith rule d paths).exists_changeAt_iff]
  simp only [changeAt_renameWith sound distinct listed idle, Option.isSome_bind,
    Option.any_eq_true, isSome_edit?]
  constructor
  · rintro ⟨place, line, present, hit⟩
    exact ⟨line, List.mem_of_getElem? present, hit⟩
  · rintro ⟨line, member, hit⟩
    obtain ⟨place, present⟩ := List.mem_iff_getElem?.1 member
    exact ⟨place, line, present, hit⟩

theorem apply_renameWith {set : ChangeSet}
    (found : (renameWith rule d p paths).2.get? path = some set) :
    set.apply (linesIn d path) = (linesIn d path).map (renamedLine rule) := by
  have next := sound.renameWith rule d paths
  refine apply_eq_map (next.orderly path.route set (get?_eq_some found)) fun place => ?_
  rw [← changeAt_renameWith sound distinct listed idle, changeAt, found, Option.bind_some]

theorem listed_of_get?_renameWith {set : ChangeSet}
    (found : (renameWith rule d p paths).2.get? path = some set) :
    path ∈ (renameWith rule d p paths).2.affectedFiles := by
  have next := sound.renameWith rule d paths
  obtain ⟨file, member, same⟩ := (next.mem_affectedFiles path).2 ⟨set, found⟩
  rcases sound.listed_renameWith d paths member with before | renamed
  · obtain ⟨former, kept⟩ := (sound.mem_affectedFiles path).1 ⟨file, before, same⟩
    rw [idle] at kept
    cases kept
  · rw [renameWith_fst] at renamed
    have among : file ∈ paths := (List.mem_filter.1 renamed).1
    have : Std.Symm fun a b : Path => ¬ a.Same b := ⟨fun _ _ apart same => apart same.symm⟩
    have here : file = path := Decidable.byContradiction fun other =>
      distinct.forall among listed other same
    exact here ▸ member

end File

end Rename

end Pending

end LineLedger
