import LineLedger.Proofs.Change.Overlay
import LineLedger.Proofs.Registry
import LineLedger.Session

set_option autoImplicit false

namespace LineLedger

section Gaps

variable {entries : List (Nat × String)} {next : Nat}

theorem withoutGaps_of_gapless (ordered : Ascending entries) (above : ∀ e ∈ entries, next ≤ e.1)
    (gapless : ∀ line, next ≤ line → line + 1 ∈ entries.map Prod.fst →
      line ∈ entries.map Prod.fst) :
    withoutGaps next entries = entries.map Prod.snd := by
  induction entries generalizing next with
  | nil => rfl
  | cons head rest ih =>
      obtain ⟨line, text⟩ := head
      have ⟨after, later⟩ := List.pairwise_cons.1 ordered
      have start : next ≤ line := above _ (List.mem_cons_self ..)
      have further : ∀ other, other ∈ rest.map Prod.fst → line < other := by
        intro other listed
        obtain ⟨e, member, here⟩ := List.mem_map.1 listed
        rw [← here]
        exact Nat.compare_eq_lt.1 (after e member)
      -- A gap before the first line would have a line above it, but all lines are below it.
      have here : line = next := by
        apply Nat.le_antisymm _ start
        apply Nat.le_of_not_lt
        intro gap
        have missing := gapless (line - 1) (by omega) (by
          rw [Nat.sub_add_cancel (by omega)]
          exact List.mem_cons_self ..)
        rcases List.mem_cons.1 missing with same | below
        · have : line - 1 = line := same
          omega
        · have := further _ below
          omega
      subst here
      rw [withoutGaps, ih later ?_ ?_]
      · simp
      · exact fun e member => Nat.compare_eq_lt.1 (after e member)
      · intro other beyond listed
        rcases List.mem_cons.1 (gapless other (by omega) (List.mem_cons_of_mem _ listed)) with
          same | below
        · have : other = line := same
          omega
        · exact below

theorem mem_withoutGaps {text : String} (member : text ∈ withoutGaps next entries) :
    text = "\n" ∨ text ∈ entries.map Prod.snd := by
  induction entries generalizing next with
  | nil => cases member
  | cons head rest ih =>
      rw [withoutGaps, List.mem_append, List.mem_cons] at member
      rcases member with blank | here | later
      · exact .inl (List.eq_of_mem_replicate blank)
      · exact .inr (here ▸ List.mem_cons_self ..)
      · exact (ih later).imp_right (List.mem_cons_of_mem _)

theorem getElem?_withoutGaps (ordered : Ascending entries) (above : ∀ e ∈ entries, next ≤ e.1)
    (place : Nat) :
    (withoutGaps next entries)[place]? =
      if ∃ e ∈ entries, next + place ≤ e.1 then
        some ((Table.find (next + place) entries).getD "\n")
      else none := by
  induction entries generalizing next place with
  | nil => simp [withoutGaps]
  | cons head rest ih =>
      obtain ⟨line, text⟩ := head
      have ⟨after, later⟩ := List.pairwise_cons.1 ordered
      have start : next ≤ line := above _ (List.mem_cons_self ..)
      have width : (List.replicate (line - next) "\n").length = line - next :=
        List.length_replicate
      rw [withoutGaps]
      -- The place is in the gap above the head, at the head, or among the rest.
      rcases Nat.lt_trichotomy (next + place) line with gap | here | beyond
      · have absent : Table.find (next + place) ((line, text) :: rest) = none := by
          refine Table.find_eq_none_of_before fun e member => Nat.compare_eq_lt.2 ?_
          rcases List.mem_cons.1 member with same | further
          · exact same ▸ gap
          · exact Nat.lt_trans gap (Nat.compare_eq_lt.1 (after e further))
        rw [List.getElem?_append_left (by omega), List.getElem?_replicate, if_pos (by omega),
          if_pos ⟨_, List.mem_cons_self .., Nat.le_of_lt gap⟩, absent]
        rfl
      · rw [List.getElem?_append_right (by omega), width, if_pos ⟨_, List.mem_cons_self .., by omega⟩,
          here, Nat.sub_eq_zero_of_le (by omega)]
        simp [Table.find]
      · obtain ⟨far, offset⟩ : ∃ far, place - (line - next) = far + 1 :=
          ⟨place - (line - next) - 1, by omega⟩
        have shifted : line + 1 + far = next + place := by omega
        have apart : ¬ compare (next + place) line = .eq := by
          rw [Nat.compare_eq_eq]
          omega
        rw [List.getElem?_append_right (by omega), width, offset, List.getElem?_cons_succ,
          ih later (fun e member => Nat.compare_eq_lt.1 (after e member)), shifted, Table.find,
          if_neg apart]
        have reach : (∃ e ∈ (line, text) :: rest, next + place ≤ e.1) ↔
            ∃ e ∈ rest, next + place ≤ e.1 := by
          have passed : ¬ next + place ≤ line := by omega
          simp [passed]
        by_cases reached : ∃ e ∈ rest, next + place ≤ e.1
        · rw [if_pos reached, if_pos (reach.2 reached)]
        · rw [if_neg reached, if_neg (mt reach.1 reached)]

end Gaps

namespace ChangeSet

def pieces (set : ChangeSet) (lines : List String) : List String :=
  withoutGaps 0 (set.overlay lines).entries

-- From that many lines on, the changes stand under numbers that follow each other.
def FillsUp (set : ChangeSet) (count : Nat) : Prop :=
  ∀ c ∈ set.toList, count < c.line → ∃ before ∈ set.toList, before.line + 1 = c.line

instance (set : ChangeSet) (count : Nat) : Decidable (set.FillsUp count) :=
  inferInstanceAs (Decidable (∀ c ∈ set.toList, _))

theorem Orderly.pieces_eq_apply {set : ChangeSet} (orderly : set.Orderly) {lines : List String}
    (keeps : set.KeepsPlaces lines.length) (fills : set.FillsUp lines.length) :
    set.pieces lines = set.apply lines := by
  rw [← orderly.values_overlay keeps, Table.values, pieces]
  refine withoutGaps_of_gapless (set.overlay lines).ascending (fun e _ => Nat.zero_le _) ?_
  have listed : ∀ line, line ∈ (set.overlay lines).entries.map Prod.fst ↔
      (∃ c ∈ set.toList, c.line = line) ∨ line < lines.length := by
    intro line
    have found := Table.mem_keys_iff (set.overlay lines) line
    have changed := Table.mem_keys_iff set.changes line
    rw [← orderly.lines_toList, List.mem_map, ← Option.isSome_iff_exists] at changed
    rw [orderly.get?_overlay, ← Option.isSome_iff_exists] at found
    rw [← Table.keys, found, changed, ← set.length_ground lines, get?]
    cases set.changes.get? line <;> simp
  intro line _ below
  rw [listed] at below ⊢
  by_cases within : line < lines.length
  · exact .inr within
  · rcases below with ⟨c, member, here⟩ | inside
    · obtain ⟨before, found, next⟩ := fills c member (by omega)
      exact .inl ⟨before, found, by omega⟩
    · exact absurd (Nat.lt_of_succ_lt inside) within

end ChangeSet

namespace Session

variable [Python.Grammar] {s : Session} {d : Disk} {path : Path} {text : String}

theorem display_pending {set : ChangeSet} (found : s.pending.get? path = some set)
    (read : d.readText path = .ok text) :
    s.display d path =
      (.ok (((s.registry.lookUpPath path).1.classifyAs path
        (String.join (set.pieces (Text.lines text)))).map (Pending.rowOf (some set))),
        { s with registry := (s.registry.lookUpPath path).2 }) := by
  simp [display, Pending.overlay, Pending.rows, found, read, bind, Except.bind, ChangeSet.pieces]

theorem display_settled (none : s.pending.get? path = none) (read : d.readText path = .ok text) :
    s.display d path =
      (.ok (((s.registry.lookUpPath path).1.classifyAs path text).map fun r => ⟨r, .none⟩),
        { s with registry := (s.registry.lookUpPath path).2 }) := by
  simp [display, Pending.overlay, Pending.rows, none, read, Language.classifyFile, bind,
    Except.bind]

end Session

end LineLedger
