import LineLedger.Pending
import LineLedger.Proofs.Change

set_option autoImplicit false

namespace LineLedger

namespace Pending

structure Sound (p : Pending) : Prop where
  inhabited : ∀ route set, p.sets.get? route = some set → set.isEmpty = false
  named : ∀ route set, p.sets.get? route = some set → set.path.route = route
  orderly : ∀ route set, p.sets.get? route = some set → set.Orderly

theorem get?_sets_record (p : Pending) (path : Path) (change : Change) (route : Route) :
    (p.record path change).sets.get? route =
      if route = path.route then
        some (((p.sets.get? path.route).getD (.empty path)).record change)
      else p.sets.get? route :=
  Table.get?_insert p.sets path.route route _

theorem get?_sets_discard (p : Pending) (path : Path) (route : Route) :
    (p.discard path).2.sets.get? route =
      if route = path.route then none else p.sets.get? route :=
  Table.get?_erase p.sets path.route route

theorem get?_eq_some {p : Pending} {path : Path} {set : ChangeSet}
    (found : p.get? path = some set) : p.sets.get? path.route = some set :=
  (Option.filter_eq_some_iff.1 found).1

theorem sound_empty : empty.Sound where
  inhabited _ _ found := by cases found
  named _ _ found := by cases found
  orderly _ _ found := by cases found

theorem Sound.record {p : Pending} (sound : p.Sound) (path : Path) {change : Change}
    (ended : change.Ended) : (p.record path change).Sound := by
  -- What is recorded into is the set that stands there, or a new one for the path.
  have base : ((p.sets.get? path.route).getD (.empty path)).path.route = path.route ∧
      ((p.sets.get? path.route).getD (.empty path)).Orderly := by
    cases found : p.sets.get? path.route with
    | none => exact ⟨rfl, ChangeSet.orderly_empty path⟩
    | some set => exact ⟨sound.named _ _ found, sound.orderly _ _ found⟩
  constructor <;> intro route set found <;> rw [get?_sets_record] at found <;> split at found
  · cases found
    exact ChangeSet.isEmpty_record _ _
  · exact sound.inhabited route set found
  · rename_i here
    cases found
    exact base.1.trans here.symm
  · exact sound.named route set found
  · cases found
    exact base.2.record ended
  · exact sound.orderly route set found

theorem Sound.discard {p : Pending} (sound : p.Sound) (path : Path) :
    (p.discard path).2.Sound := by
  have kept : ∀ route set, (p.discard path).2.sets.get? route = some set →
      p.sets.get? route = some set := by
    intro route set found
    rw [get?_sets_discard] at found
    split at found
    · cases found
    · exact found
  constructor
  · exact fun route set found => sound.inhabited route set (kept route set found)
  · exact fun route set found => sound.named route set (kept route set found)
  · exact fun route set found => sound.orderly route set (kept route set found)

theorem Sound.get?_eq {p : Pending} (sound : p.Sound) (path : Path) :
    p.get? path = p.sets.get? path.route := by
  rw [get?]
  cases found : p.sets.get? path.route with
  | none => rfl
  | some set => simp [Option.filter, sound.inhabited _ _ found]

section Listing

variable {p : Pending}

theorem Sound.routes_affectedFiles (sound : p.Sound) :
    p.affectedFiles.map Path.route = p.sets.keys := by
  have all : p.sets.values.filter (fun set => !set.isEmpty) = p.sets.values := by
    refine List.filter_eq_self.2 fun set listed => ?_
    obtain ⟨route, found⟩ := (Table.mem_values_iff _ _).1 listed
    simp [sound.inhabited route set found]
  rw [affectedFiles, all, Table.values, Table.keys, List.map_map, List.map_map]
  refine List.map_congr_left fun entry listed => ?_
  exact sound.named entry.1 entry.2 ((Table.get?_eq_some_iff _ _ _).2 listed)

theorem Sound.affectedFiles_ordered (sound : p.Sound) :
    p.affectedFiles.Pairwise fun a b => a.before b = true := by
  have ordered := p.sets.keys_ascending
  rw [← sound.routes_affectedFiles, List.pairwise_map] at ordered
  exact ordered.imp fun below => decide_eq_true below

theorem Sound.mem_affectedFiles (sound : p.Sound) (path : Path) :
    (∃ file ∈ p.affectedFiles, file.Same path) ↔ ∃ set, p.get? path = some set := by
  rw [sound.get?_eq, ← Table.mem_keys_iff, ← sound.routes_affectedFiles, List.mem_map]
  rfl

-- A file is listed as it was spelled when its first change was recorded.
theorem Sound.listed_iff (sound : p.Sound) (file : Path) :
    file ∈ p.affectedFiles ↔ ∃ set, p.sets.get? file.route = some set ∧ set.path = file := by
  constructor
  · intro member
    obtain ⟨set, listed, rfl⟩ := List.mem_map.1 member
    obtain ⟨route, found⟩ := (Table.mem_values_iff _ _).1 (List.mem_filter.1 listed).1
    exact ⟨set, sound.named route set found ▸ found, rfl⟩
  · rintro ⟨set, found, rfl⟩
    refine List.mem_map.2 ⟨set, List.mem_filter.2 ⟨?_, ?_⟩, rfl⟩
    · exact (Table.mem_values_iff _ _).2 ⟨_, found⟩
    · simp [sound.inhabited _ _ found]

theorem Sound.eq_of_same (sound : p.Sound) {a b : Path} (first : a ∈ p.affectedFiles)
    (second : b ∈ p.affectedFiles) (same : a.Same b) : a = b := by
  obtain ⟨set, found, rfl⟩ := (sound.listed_iff a).1 first
  obtain ⟨other, also, rfl⟩ := (sound.listed_iff b).1 second
  rw [same, also] at found
  cases found
  rfl

theorem Sound.affectedFiles_routes (sound : p.Sound) :
    p.affectedFiles.Pairwise fun a b => ¬ a.Same b := by
  have distinct := p.sets.nodup_keys
  rw [← sound.routes_affectedFiles, List.Nodup, List.pairwise_map] at distinct
  exact distinct

def places (p : Pending) : List (Route × Nat) :=
  p.sets.entries.flatMap fun entry => entry.2.changes.keys.map fun line => (entry.1, line)

theorem length_places (p : Pending) : p.places.length = p.size := by
  rw [places, size, Table.values]
  induction p.sets.entries with
  | nil => rfl
  | cons entry rest ih => simp [ih, Table.length_keys, ChangeSet.size]

theorem nodup_places (p : Pending) : p.places.Nodup := by
  rw [places, List.Nodup, List.pairwise_flatMap]
  constructor
  · intro entry _
    rw [List.pairwise_map]
    exact (Table.nodup_keys _).imp fun apart same => apart (Prod.mk.inj same).2
  · -- Two entries have two keys, and each pair starts with the key of its entry.
    have apart := p.sets.nodup_keys
    rw [Table.keys, List.Nodup, List.pairwise_map] at apart
    refine apart.imp fun {a b} apart x left y right same => apart ?_
    obtain ⟨_, _, rfl⟩ := List.mem_map.1 left
    obtain ⟨_, _, rfl⟩ := List.mem_map.1 right
    exact (Prod.mk.inj same).1

theorem mem_places (p : Pending) (route : Route) (line : Nat) :
    (route, line) ∈ p.places ↔
      ∃ set change, p.sets.get? route = some set ∧ set.get? line = some change := by
  simp only [places, List.mem_flatMap, List.mem_map, Prod.mk.injEq]
  constructor
  · rintro ⟨⟨_, set⟩, listed, _, key, rfl, rfl⟩
    obtain ⟨change, found⟩ := (Table.mem_keys_iff _ _).1 key
    exact ⟨set, change, (Table.get?_eq_some_iff _ _ _).2 listed, found⟩
  · rintro ⟨set, change, kept, found⟩
    exact ⟨(route, set), (Table.get?_eq_some_iff _ _ _).1 kept, line,
      (Table.mem_keys_iff _ _).2 ⟨change, found⟩, rfl, rfl⟩

end Listing

end Pending

end LineLedger
