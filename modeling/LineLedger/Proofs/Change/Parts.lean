import LineLedger.Proofs.Change.Applied
import LineLedger.Proofs.Change.Unfused
import Mathlib.Data.List.Sort

set_option autoImplicit false

namespace LineLedger

namespace Change

def below (k : Nat) (changes : List Change) : List Change := changes.filter fun c => c.line < k

def above (k : Nat) (changes : List Change) : List Change := changes.filter fun c => k ≤ c.line

theorem latestAt_filter (keep : Nat → Bool) (changes : List Change) (line : Nat) :
    latestAt (changes.filter fun c => keep c.line) line =
      if keep line then latestAt changes line else none := by
  induction changes with
  | nil => simp [latestAt]
  | cons c rest ih =>
      by_cases here : c.line = line <;> cases kept : keep line <;> cases other : keep c.line <;>
        simp_all [latestAt_cons]

theorem latestAt_below_above (k : Nat) (changes : List Change) (line : Nat) :
    latestAt (below k changes ++ above k changes) line = latestAt changes line := by
  have low := latestAt_filter (· < k) changes line
  have high := latestAt_filter (k ≤ ·) changes line
  rw [latestAt_append, below, above, low, high]
  by_cases side : line < k <;> simp [side, Nat.not_le.2, Nat.le_of_not_lt]

theorem below_append_above_eq_nil {k : Nat} {changes : List Change} :
    below k changes ++ above k changes = [] ↔ changes = [] := by
  rw [below, above]
  cases changes with
  | nil => simp
  | cons c rest =>
      by_cases side : c.line < k
      · simp [side]
      · simp [Nat.le_of_not_lt side]

variable {k : Nat} {changes : List Change}

theorem above_eq_self (none : below k changes = []) : above k changes = changes :=
  List.filter_eq_self.2 fun c member => by
    simpa using List.filter_eq_nil_iff.1 none c member

theorem below_eq_self (none : above k changes = []) : below k changes = changes :=
  List.filter_eq_self.2 fun c member => by
    simpa using List.filter_eq_nil_iff.1 none c member

end Change

namespace ChangeSet

theorem ext_get? {s t : ChangeSet} (path : s.path = t.path)
    (same : ∀ line, s.get? line = t.get? line) : s = t := by
  have changes : s.changes = t.changes := Table.ext_get? same
  cases s
  simp_all

theorem Orderly.lines_join_apply {set : ChangeSet} (orderly : set.Orderly)
    (oneLine : set.OneLine) (text : String) :
    Text.lines (String.join (set.apply (Text.lines text))) = set.apply (Text.lines text) := by
  have single : ∀ entry ∈ set.apply (Text.lines text), Text.lines entry = [entry] :=
    Change.single_applyAll (orderly.lines_replacement oneLine) fun line listed =>
      Text.lines_of_mem_lines listed
  have unfused : Unfused text (set.apply (Text.lines text)) :=
    Change.unfused_applyAll (fun c member => orderly.ended_of_mem member) (Unfused.lines text)
  exact Text.lines_join_of_single (fun _ member => unfused.ended_of_mem_dropLast member) single

def ofChanges (path : Path) (changes : List Change) : ChangeSet :=
  changes.foldl ChangeSet.record (.empty path)

section Parts

variable {path : Path} {changes : List Change}

theorem get?_ofChanges (path : Path) (changes : List Change) (line : Nat) :
    (ofChanges path changes).get? line = Change.latestAt changes line := by
  rw [ofChanges, get?_foldl_record]
  exact Option.or_none

theorem isEmpty_ofChanges (path : Path) (some : changes ≠ []) :
    (ofChanges path changes).isEmpty = false := by
  rw [ofChanges, ← List.dropLast_concat_getLast some, List.foldl_append]
  exact isEmpty_record _ _

variable (made : ∀ c ∈ changes, c.IsMade)

include made

theorem orderly_ofChanges : (ofChanges path changes).Orderly :=
  orderly_foldl_record (orderly_empty path) fun c member =>
    (Change.isMade_iff_ended c).1 (made c member)

theorem orderly_filter (path : Path) (keep : Change → Bool) :
    (ofChanges path (changes.filter keep)).Orderly :=
  orderly_ofChanges fun c member => made c (List.mem_filter.1 member).1

theorem mem_toList_filter (path : Path) (keep : Nat → Bool) (c : Change) :
    c ∈ (ofChanges path (changes.filter fun c => keep c.line)).toList ↔
      keep c.line = true ∧ c ∈ (ofChanges path changes).toList := by
  rw [(orderly_filter made path _).mem_toList, (orderly_ofChanges made).mem_toList, get?_ofChanges,
    get?_ofChanges, Change.latestAt_filter]
  cases keep c.line <;> simp

theorem toList_below_above (path : Path) (k : Nat) :
    (ofChanges path (Change.below k changes)).toList ++
      (ofChanges path (Change.above k changes)).toList = (ofChanges path changes).toList := by
  have inLow (c : Change) : c ∈ (ofChanges path (Change.below k changes)).toList ↔
      c.line < k ∧ c ∈ (ofChanges path changes).toList := by
    simpa [Change.below] using mem_toList_filter made path (· < k) c
  have inHigh (c : Change) : c ∈ (ofChanges path (Change.above k changes)).toList ↔
      k ≤ c.line ∧ c ∈ (ofChanges path changes).toList := by
    simpa [Change.above] using mem_toList_filter made path (k ≤ ·) c
  have ascending : ((ofChanges path (Change.below k changes)).toList ++
      (ofChanges path (Change.above k changes)).toList).Pairwise fun a b => a.line < b.line := by
    refine List.pairwise_append.2 ⟨(orderly_filter made path _).sorted,
      (orderly_filter made path _).sorted, fun a first b second => ?_⟩
    exact Nat.lt_of_lt_of_le ((inLow a).1 first).1 ((inHigh b).1 second).1
  have : Std.Irrefl fun a b : Change => a.line < b.line := ⟨fun c => Nat.lt_irrefl c.line⟩
  have : Std.Antisymm fun a b : Change => a.line < b.line :=
    ⟨fun a b first second => absurd second (Nat.lt_asymm first)⟩
  refine ascending.eq_of_mem_iff (orderly_ofChanges made).sorted fun c => ?_
  rw [List.mem_append, inLow, inHigh, ← or_and_right]
  exact and_iff_right (Nat.lt_or_ge c.line k)

theorem apply_below_above (oneLine : (ofChanges path changes).OneLine) (k : Nat) (text : String) :
    (ofChanges path (Change.above k changes)).apply (Text.lines (String.join
        ((ofChanges path (Change.below k changes)).apply (Text.lines text)))) =
      (ofChanges path changes).apply (Text.lines text) := by
  have parts := toList_below_above made path k
  have lowOneLine : (ofChanges path (Change.below k changes)).OneLine := fun c member =>
    oneLine c (parts ▸ List.mem_append_left _ member)
  have low : (ofChanges path (Change.below k changes)).Orderly := orderly_filter made path _
  rw [low.lines_join_apply lowOneLine, apply, apply, ← List.foldl_append, parts]
  rfl

end Parts

end ChangeSet

end LineLedger
