import LineLedger.Proofs.Pending.Commit
import LineLedger.Proofs.Pending.History

set_option autoImplicit false

namespace LineLedger

inductive Call : Type 1 where
  | record (path : Path) (line : Nat) (old new : Option String) (kind : ChangeKind)
  | insert (path : Path) (line : Nat) (text : String)
  | delete (path : Path) (line : Nat) (old : Option String)
  | edit (path : Path) (line : Nat) (old : Option String) (text : String)
  | rename (whole : Bool) (old new : String) (paths : List Path)
  | script (edits : Script)
  | overlay (path : Path)
  | resolve {σ : Type} (policy : Policy σ) (state : σ) (path : Path)
  | resolveAll {σ : Type} (policy : Policy σ) (state : σ)
  | discard (path : Path)
  | clear

namespace Pending

def renamed (rule : List Char → Option (List Char)) (first : Nat) (lines : List String) :
    List Change :=
  (lines.zipIdx first).filterMap fun (line, place) =>
    (rule line.toList).map fun new => Change.replacing place (some line) (String.ofList new)

def renamedIn (rule : List Char → Option (List Char)) (d : Disk) (path : Path) : List Event :=
  match d.readText path with
  | .error _ => []
  | .ok text => (renamed rule 0 (Text.lines text)).map (.recorded path)

end Pending

namespace Call

def run (d : Disk) (p : Pending) : Call → Pending
  | .record path line old new kind => p.record path (.make line old new kind)
  | .insert path line text => p.record path (.insertion line text)
  | .delete path line old => p.record path (.deletion line old)
  | .edit path line old text => p.record path (.replacing line old text)
  | .rename whole old new paths => (p.rename whole old new d paths).2
  | .script edits => edits.recordInto p
  | .overlay _ => p
  | .resolve policy state path => (Pending.resolve policy ⟨p, d, state⟩ path).2.pending
  | .resolveAll policy state => (Pending.resolveAll policy ⟨p, d, state⟩).2.pending
  | .discard path => (p.discard path).2
  | .clear => .empty

def events (d : Disk) (p : Pending) : Call → List Event
  | .record path line old new kind => [.recorded path (.make line old new kind)]
  | .insert path line text => [.recorded path (.insertion line text)]
  | .delete path line old => [.recorded path (.deletion line old)]
  | .edit path line old text => [.recorded path (.replacing line old text)]
  | .rename whole old new paths =>
    if old.isEmpty then []
    else paths.flatMap (Pending.renamedIn (Text.replace? whole old.toList new.toList) d)
  | .script edits => edits.entries.map fun entry => .recorded entry.file entry.change
  | .overlay _ => []
  | .resolve policy state path =>
    match (Pending.resolve policy ⟨p, d, state⟩ path).1 with
    | .ok true => [.dropped path]
    | _ => []
  | .resolveAll policy state =>
    (Pending.resolveAll policy ⟨p, d, state⟩).1.committed.map .dropped
  | .discard path => [.dropped path]
  | .clear => [.cleared]

end Call

namespace Pending

def runCalls (p : Pending) : List (Disk × Call) → List Event × Pending
  | [] => ([], p)
  | (d, call) :: rest =>
    let (later, final) := runCalls (call.run d p) rest
    (call.events d p ++ later, final)

section Rename

variable {rule : List Char → Option (List Char)}

theorem renameLines_eq (path : Path) (first : Nat) (p : Pending) (lines : List String) :
    (renameLines rule path first p lines).2 =
      ((renamed rule first lines).map (Event.recorded path)).foldl after p := by
  induction lines generalizing first p with
  | nil => rfl
  | cons line rest ih =>
      rw [renameLines]
      cases changed : rule line.toList with
      | none => simpa [renamed, changed] using ih (first + 1) p
      | some new =>
          simpa [renamed, changed, after] using
            ih (first + 1) (p.record path (.replacing first (some line) (String.ofList new)))

theorem renameWith_eq (d : Disk) (p : Pending) (paths : List Path) :
    (renameWith rule d p paths).2 = (paths.flatMap (renamedIn rule d)).foldl after p := by
  induction paths generalizing p with
  | nil => rfl
  | cons path rest ih =>
      rw [renameWith, List.flatMap_cons, List.foldl_append]
      cases read : d.readText path with
      | error failure => simpa [renamedIn, read] using ih p
      | ok text =>
          simp only [renamedIn, read]
          rw [ih, renameLines_eq]

theorem proper_renamedIn (d : Disk) (path : Path) :
    ∀ event ∈ renamedIn rule d path, event.Proper := by
  intro event member
  unfold renamedIn at member
  split at member
  · cases member
  · obtain ⟨change, listed, rfl⟩ := List.mem_map.1 member
    obtain ⟨⟨line, place⟩, _, made⟩ := List.mem_filterMap.1 listed
    obtain ⟨new, _, rfl⟩ := Option.map_eq_some_iff.1 made
    exact Change.ended_make place (some line) (some (String.ofList new)) .edit

end Rename

section Resolve

variable {σ : Type}

theorem resolve_eq (policy : Policy σ) (run : Run σ) (path : Path) :
    (resolve policy run path).2.pending =
      match (resolve policy run path).1 with
      | .ok true => (run.pending.discard path).2
      | _ => run.pending := by
  rcases resolve_cases policy run path with
    ⟨state, eq⟩ | ⟨next, final, state, committed, _, eq⟩ | ⟨failure, state, _, eq⟩
  · rw [eq]
  · rw [eq]
    exact (commitFile_cases committed).1
  · rw [eq]

theorem Batch.pending_eq {policy : Policy σ} {affected : Nat} {standing : Option Bool}
    {run final : Run σ} {files : List Path} {report : ResolveReport}
    (batch : Batch policy affected standing run files report final) :
    final.pending = (report.committed.map Event.dropped).foldl after run.pending := by
  induction batch with
  | done => rfl
  | declined answer later ih => exact ih
  | committed answer commit later ih =>
      rw [ih, (commitFile_cases commit).1]
      rfl
  | failed answer commit later ih => exact ih

end Resolve

end Pending

namespace Call

-- What a call leaves pending is what its events alone would leave.
theorem run_eq (d : Disk) (p : Pending) (call : Call) :
    call.run d p = (call.events d p).foldl Pending.after p := by
  cases call with
  | record | insert | delete | edit | overlay | discard | clear => rfl
  | rename whole old new paths =>
      rw [run, events, Pending.rename]
      split
      · rfl
      · exact Pending.renameWith_eq d p paths
  | script edits =>
      rw [run, events, Script.recordInto, List.foldl_map]
      rfl
  | resolve policy state path =>
      rw [run, Pending.resolve_eq, events]
      split <;> rfl
  | resolveAll policy state => exact (Pending.batch_resolveEach ..).pending_eq

theorem proper_events (d : Disk) (p : Pending) (call : Call) :
    ∀ event ∈ call.events d p, event.Proper := by
  intro event member
  cases call with
  | record | insert | delete | edit =>
      cases List.mem_singleton.1 member
      intro text given
      exact Change.ended_make _ _ _ _ text given
  | rename whole old new paths =>
      rw [events] at member
      split at member
      · cases member
      · obtain ⟨path, _, listed⟩ := List.mem_flatMap.1 member
        exact Pending.proper_renamedIn d path event listed
  | script edits =>
      obtain ⟨entry, _, rfl⟩ := List.mem_map.1 member
      exact Change.ended_make (entry.line - 1) none entry.content entry.kind
  | overlay path => cases member
  | resolve policy state path =>
      rw [events] at member
      split at member
      · cases List.mem_singleton.1 member
        trivial
      · cases member
  | resolveAll policy state =>
      obtain ⟨path, _, rfl⟩ := List.mem_map.1 member
      trivial
  | discard | clear =>
      cases List.mem_singleton.1 member
      trivial

end Call

namespace Pending

theorem runCalls_eq (p : Pending) (calls : List (Disk × Call)) :
    (runCalls p calls).2 = (runCalls p calls).1.foldl after p := by
  induction calls generalizing p with
  | nil => rfl
  | cons head rest ih => simp only [runCalls, List.foldl_append, ih, ← Call.run_eq]

theorem proper_runCalls (p : Pending) (calls : List (Disk × Call)) :
    ∀ event ∈ (runCalls p calls).1, event.Proper := by
  induction calls generalizing p with
  | nil => exact fun event member => nomatch member
  | cons head rest ih =>
      intro event member
      rcases List.mem_append.1 member with first | later
      · exact Call.proper_events _ _ _ event first
      · exact ih _ event later

def Reachable (p : Pending) : Prop := ∃ calls, p = (runCalls .empty calls).2

theorem Reachable.sound {p : Pending} (reachable : p.Reachable) : p.Sound := by
  obtain ⟨calls, rfl⟩ := reachable
  rw [runCalls_eq]
  exact sound_foldl_after sound_empty (proper_runCalls .empty calls)

theorem Reachable.recorded {p : Pending} (reachable : p.Reachable) {path : Path} {set : ChangeSet}
    (found : p.get? path = some set) : set.Recorded :=
  (set.recorded_iff_orderly).2 (reachable.sound.orderly path.route set (get?_eq_some found))

theorem changeAt_runCalls (calls : List (Disk × Call)) (path : Path) (line : Nat) :
    (runCalls .empty calls).2.changeAt path line =
      latest path line (runCalls .empty calls).1.reverse := by
  have same := changeAt_foldl_after sound_empty (proper_runCalls .empty calls) []
    (fun _ _ => rfl) path line
  rwa [List.append_nil, ← runCalls_eq] at same

theorem Sound.mem_places_iff {p : Pending} (sound : p.Sound) (route : Route) (line : Nat) :
    (route, line) ∈ p.places ↔
      ∃ path : Path, path.route = route ∧ (p.changeAt path line).isSome = true := by
  rw [mem_places]
  constructor
  · rintro ⟨set, change, kept, found⟩
    have named := sound.named route set kept
    exact ⟨set.path, named, by simp [sound.changeAt_eq, named, kept, found]⟩
  · rintro ⟨path, rfl, some⟩
    rw [sound.changeAt_eq, Option.isSome_bind, Option.any_eq_true] at some
    obtain ⟨set, kept, some⟩ := some
    obtain ⟨change, found⟩ := Option.isSome_iff_exists.1 some
    exact ⟨set, change, kept, found⟩

theorem Sound.exists_changeAt_iff {p : Pending} (sound : p.Sound) (path : Path) :
    (∃ line, (p.changeAt path line).isSome = true) ↔ ∃ set, p.get? path = some set := by
  constructor
  · rintro ⟨line, some⟩
    rw [changeAt, Option.isSome_bind, Option.any_eq_true] at some
    obtain ⟨set, kept, _⟩ := some
    exact ⟨set, kept⟩
  · rintro ⟨set, kept⟩
    -- A set that is kept is not empty, so one of its lines has a change.
    have inhabited := sound.inhabited path.route set (sound.get?_eq path ▸ kept)
    cases keys : set.changes.keys with
    | nil =>
        rw [Table.keys_eq_nil_iff] at keys
        rw [ChangeSet.isEmpty, keys] at inhabited
        cases inhabited
    | cons line rest =>
        obtain ⟨change, found⟩ := (Table.mem_keys_iff set.changes line).1 (by simp [keys])
        have here : set.get? line = some change := found
        exact ⟨line, by simp [changeAt, kept, here]⟩

theorem pending_after_calls (calls : List (Disk × Call)) :
    let events := (runCalls .empty calls).1
    let p := (runCalls .empty calls).2
    (∀ path line, p.changeAt path line = latest path line events.reverse) ∧
    (∀ route set, p.sets.get? route = some set →
      set.isEmpty = false ∧ set.path.route = route ∧
      ∀ line change, set.get? line = some change →
        change.line = line ∧
        ∀ text, change.new = some text → Text.endsLine text.toList = true) ∧
    (∃ places : List (Route × Nat), places.Nodup ∧ places.length = p.size ∧
      ∀ route line, (route, line) ∈ places ↔
        ∃ path : Path, path.route = route ∧
          (latest path line events.reverse).isSome = true) ∧
    p.affectedFiles.Pairwise (fun a b => a.before b = true) ∧
    (∀ path, (∃ file ∈ p.affectedFiles, file.Same path) ↔
      ∃ line, (latest path line events.reverse).isSome = true) := by
  intro events p
  have sound : p.Sound := Reachable.sound ⟨calls, rfl⟩
  have correct : ∀ path line, p.changeAt path line = latest path line events.reverse :=
    changeAt_runCalls calls
  refine ⟨correct, fun route set kept => ?_, ⟨p.places, p.nodup_places, p.length_places, ?_⟩,
    sound.affectedFiles_ordered, ?_⟩
  · have orderly := sound.orderly route set kept
    exact ⟨sound.inhabited route set kept, sound.named route set kept, fun line change found =>
      ⟨orderly.placed line change found, orderly.ended line change found⟩⟩
  · intro route line
    simp only [← correct]
    exact sound.mem_places_iff route line
  · intro path
    simp only [← correct]
    rw [sound.mem_affectedFiles, sound.exists_changeAt_iff]

end Pending

end LineLedger
