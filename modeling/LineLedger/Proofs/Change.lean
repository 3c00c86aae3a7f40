import LineLedger.Change
import LineLedger.Proofs.Table
import LineLedger.Proofs.Text.Lines

set_option autoImplicit false

namespace LineLedger

namespace Change

def Ended (c : Change) : Prop :=
  ∀ text, c.new = some text → Text.endsLine text.toList = true

def IsMade (c : Change) : Prop :=
  ∃ line old new kind, c = Change.make line old new kind

theorem ended_make (line : Nat) (old new : Option String) (kind : ChangeKind) :
    (Change.make line old new kind).Ended := by
  intro text given
  obtain ⟨written, _, ended⟩ := Option.map_eq_some_iff.1 given
  rw [← ended]
  exact Text.endsLine_terminated written

theorem isMade_iff_ended (c : Change) : c.IsMade ↔ c.Ended := by
  constructor
  · rintro ⟨line, old, new, kind, rfl⟩
    exact ended_make line old new kind
  · intro ended
    -- Text that ends in a line feed is left as it is, so the change makes itself.
    refine ⟨c.line, c.old, c.new, c.kind, ?_⟩
    obtain ⟨line, old, new, kind⟩ := c
    cases new with
    | none => rfl
    | some text => simp [make, Text.terminated_of_endsLine (ended text rfl)]

theorem endsLine_replacement {c : Change} (ended : c.Ended) :
    Text.endsLine c.replacement.toList = true := by
  have blank : Text.endsLine "\n".toList = true := rfl
  have given : Text.endsLine (c.new.getD "\n").toList = true := by
    cases new : c.new with
    | none => exact blank
    | some text => exact ended text new
  unfold replacement
  split
  · exact blank
  · exact given
  · exact given

def latestAt (changes : List Change) (line : Nat) : Option Change :=
  changes.reverse.find? fun c => c.line = line

theorem latestAt_cons (c : Change) (rest : List Change) (line : Nat) :
    latestAt (c :: rest) line = (latestAt rest line).or (if c.line = line then some c else none) := by
  rw [latestAt, List.reverse_cons, List.find?_append, latestAt]
  by_cases here : c.line = line <;> simp [here]

end Change

namespace ChangeSet

structure Orderly (set : ChangeSet) : Prop where
  placed : ∀ line change, set.get? line = some change → change.line = line
  ended : ∀ line change, set.get? line = some change → change.Ended

theorem get?_record (set : ChangeSet) (change : Change) (line : Nat) :
    (set.record change).get? line = if line = change.line then some change else set.get? line :=
  Table.get?_insert set.changes change.line line change

theorem isEmpty_record (set : ChangeSet) (change : Change) :
    (set.record change).isEmpty = false :=
  Table.isEmpty_insert set.changes change.line change

theorem orderly_empty (path : Path) : (empty path).Orderly where
  placed _ _ found := by cases found
  ended _ _ found := by cases found

theorem Orderly.record {set : ChangeSet} (orderly : set.Orderly) {change : Change}
    (ended : change.Ended) : (set.record change).Orderly := by
  constructor
  · intro line other found
    rw [get?_record] at found
    split at found
    · rename_i here
      cases found
      exact here.symm
    · exact orderly.placed line other found
  · intro line other found
    rw [get?_record] at found
    split at found
    · cases found
      exact ended
    · exact orderly.ended line other found

def Recorded (set : ChangeSet) : Prop :=
  ∃ changes : List Change,
    (∀ c ∈ changes, c.IsMade) ∧ set = changes.foldl ChangeSet.record (empty set.path)

section Listing

variable {set : ChangeSet}

theorem Orderly.mem_toList (orderly : set.Orderly) (change : Change) :
    change ∈ set.toList ↔ set.get? change.line = some change := by
  rw [toList, Table.mem_values_iff]
  constructor
  · rintro ⟨line, found⟩
    rwa [orderly.placed line change found]
  · intro found
    exact ⟨change.line, found⟩

theorem Orderly.ended_of_mem (orderly : set.Orderly) {change : Change}
    (member : change ∈ set.toList) : change.Ended :=
  orderly.ended change.line change ((orderly.mem_toList change).1 member)

theorem Orderly.lines_toList (orderly : set.Orderly) :
    set.toList.map Change.line = set.changes.keys := by
  rw [toList, Table.values, Table.keys, List.map_map]
  refine List.map_congr_left fun entry listed => ?_
  exact orderly.placed entry.1 entry.2 ((Table.get?_eq_some_iff _ _ _).2 listed)

theorem Orderly.sorted (orderly : set.Orderly) :
    set.toList.Pairwise fun a b => a.line < b.line := by
  have ascending := set.changes.keys_ascending
  rw [← orderly.lines_toList, List.pairwise_map] at ascending
  exact ascending.imp fun below => Nat.compare_eq_lt.1 below

theorem Orderly.exists_last (orderly : set.Orderly) {change : Change}
    (member : change ∈ set.toList) :
    ∃ last ∈ set.toList, set.changes.lastKey? = some last.line ∧
      ∀ other ∈ set.toList, other.line ≤ last.line := by
  obtain ⟨before, last, split⟩ : ∃ before last, set.toList = before ++ [last] :=
    ⟨_, _, (List.dropLast_concat_getLast (List.ne_nil_of_mem member)).symm⟩
  have sorted := orderly.sorted
  rw [split, List.pairwise_append] at sorted
  refine ⟨last, by simp [split], ?_, fun other listed => ?_⟩
  · rw [Table.lastKey?, ← orderly.lines_toList, split]
    simp
  · rw [split, List.mem_append, List.mem_singleton] at listed
    rcases listed with earlier | here
    · exact Nat.le_of_lt (sorted.2.2 other earlier last (List.mem_singleton_self last))
    · exact Nat.le_of_eq (congrArg Change.line here)

theorem Orderly.latestAt_toList (orderly : set.Orderly) (line : Nat) :
    Change.latestAt set.toList line = set.get? line := by
  apply Option.ext
  intro change
  constructor
  · intro latest
    have member := List.mem_reverse.1 (List.mem_of_find?_eq_some latest)
    have here : change.line = line := by simpa using List.find?_some latest
    rw [← here]
    exact (orderly.mem_toList change).1 member
  · intro found
    have here := orderly.placed line change found
    have member := (orderly.mem_toList change).2 (by rwa [here])
    -- Whatever the search comes to first is the one change under that line.
    cases latest : Change.latestAt set.toList line with
    | none =>
        have passed := List.find?_eq_none.1 latest change (List.mem_reverse.2 member)
        exact absurd here (by simpa using passed)
    | some other =>
        have listed := List.mem_reverse.1 (List.mem_of_find?_eq_some latest)
        have there : other.line = line := by simpa using List.find?_some latest
        have same := (orderly.mem_toList other).1 listed
        rw [there] at same
        exact same.symm.trans found

end Listing

theorem get?_foldl_record (changes : List Change) (set : ChangeSet) (line : Nat) :
    (changes.foldl ChangeSet.record set).get? line =
      (Change.latestAt changes line).or (set.get? line) := by
  induction changes generalizing set with
  | nil => rfl
  | cons c rest ih =>
      rw [List.foldl_cons, ih, get?_record, Change.latestAt_cons]
      by_cases here : c.line = line
      · simp [here]
      · simp [here, Ne.symm here]

theorem path_foldl_record (changes : List Change) (set : ChangeSet) :
    (changes.foldl ChangeSet.record set).path = set.path := by
  induction changes generalizing set with
  | nil => rfl
  | cons c rest ih => exact ih (set.record c)

theorem orderly_foldl_record {changes : List Change} {set : ChangeSet} (orderly : set.Orderly)
    (ended : ∀ c ∈ changes, c.Ended) : (changes.foldl ChangeSet.record set).Orderly := by
  induction changes generalizing set with
  | nil => exact orderly
  | cons c rest ih =>
      have next := orderly.record (ended c (List.mem_cons_self ..))
      exact ih next fun other later => ended other (List.mem_cons_of_mem _ later)

theorem recorded_iff_orderly (set : ChangeSet) : set.Recorded ↔ set.Orderly := by
  constructor
  · rintro ⟨changes, made, same⟩
    rw [same]
    refine orderly_foldl_record (orderly_empty _) fun c member => ?_
    exact (Change.isMade_iff_ended c).1 (made c member)
  · intro orderly
    refine ⟨set.toList, fun c member => ?_, ?_⟩
    · exact (Change.isMade_iff_ended c).2 (orderly.ended_of_mem member)
    · have path := path_foldl_record set.toList (empty set.path)
      have changes : (set.toList.foldl ChangeSet.record (empty set.path)).changes = set.changes := by
        apply Table.ext_get?
        intro line
        have found := get?_foldl_record set.toList (empty set.path) line
        rw [orderly.latestAt_toList] at found
        simpa [get?, empty] using found
      generalize set.toList.foldl ChangeSet.record (empty set.path) = again at path changes
      obtain ⟨_, _⟩ := again
      cases path
      cases changes
      rfl

end ChangeSet

end LineLedger
