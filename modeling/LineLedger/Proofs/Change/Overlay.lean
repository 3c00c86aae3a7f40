import LineLedger.Proofs.Change

set_option autoImplicit false

namespace LineLedger

section TerminateLast

theorem length_terminateLast (lines : List String) :
    (terminateLast lines).length = lines.length := by
  induction lines using terminateLast.induct with
  | case1 => rfl
  | case2 last => rfl
  | case3 line rest more ih => simp [terminateLast, ih]

theorem terminateLast_concat (lines : List String) (last : String) :
    terminateLast (lines ++ [last]) = lines ++ [Text.terminated last] := by
  induction lines with
  | nil => rfl
  | cons line rest ih =>
      cases rest with
      | nil => rfl
      | cons next more =>
          simp only [List.cons_append] at ih ⊢
          rw [terminateLast, ih]
          exact List.cons_ne_nil _ _

theorem terminateLast_append_ended (lines : List String) {last : String}
    (ended : Text.endsLine last.toList = true) :
    terminateLast (lines ++ [last]) = lines ++ [last] := by
  rw [terminateLast_concat, Text.terminated_of_endsLine ended]

theorem terminateLast_set (lines : List String) (place : Nat) {text : String}
    (ended : Text.endsLine text.toList = true) :
    terminateLast (lines.set place text) = (terminateLast lines).set place text := by
  induction lines generalizing place with
  | nil => rfl
  | cons line rest ih =>
      cases rest with
      | nil =>
          cases place with
          | zero => simp [terminateLast, Text.terminated_of_endsLine ended]
          | succ below => rfl
      | cons next more =>
          cases place with
          | zero => rfl
          | succ below =>
              have later := ih below
              cases below with
              | zero => simpa [terminateLast] using later
              | succ further => simpa [terminateLast] using later

end TerminateLast

namespace Change

def showOn (shown : Table Nat String) (c : Change) : Table Nat String :=
  shown.insert c.line c.replacement

theorem applyTo_within {lines : List String} {c : Change} (within : c.line < lines.length)
    (kept : c.kind ≠ .insert) : c.applyTo lines = lines.set c.line c.replacement := by
  rw [applyTo, if_pos within]
  cases kind : c.kind with
  | insert => exact absurd kind kept
  | delete => rfl
  | edit => rfl

theorem applyTo_past {lines : List String} {c : Change} (past : lines.length ≤ c.line)
    (kept : c.kind ≠ .delete) : c.applyTo lines = terminateLast lines ++ [c.replacement] := by
  rw [applyTo, if_neg (Nat.not_lt.2 past)]
  cases kind : c.kind with
  | delete => exact absurd kind kept
  | insert => rfl
  | edit => rfl

section Within

variable {changes : List Change} {lines : List String}

theorem showAll_within (within : ∀ c ∈ changes, c.line < lines.length ∧ c.kind ≠ .insert) :
    changes.foldl showOn (Table.enumerate lines) =
      Table.enumerate (changes.foldl applyTo lines) := by
  induction changes generalizing lines with
  | nil => rfl
  | cons c rest ih =>
      have ⟨below, kept⟩ := within c (List.mem_cons_self ..)
      rw [List.foldl_cons, List.foldl_cons, showOn, Table.insert_enumerate below,
        applyTo_within below kept]
      refine ih fun other later => ?_
      rw [List.length_set]
      exact within other (List.mem_cons_of_mem _ later)

theorem length_applyAll_within
    (within : ∀ c ∈ changes, c.line < lines.length ∧ c.kind ≠ .insert) :
    (changes.foldl applyTo lines).length = lines.length := by
  induction changes generalizing lines with
  | nil => rfl
  | cons c rest ih =>
      have ⟨below, kept⟩ := within c (List.mem_cons_self ..)
      have same : (c.applyTo lines).length = lines.length := by
        rw [applyTo_within below kept, List.length_set]
      rw [List.foldl_cons, ih, same]
      rw [same]
      exact fun other later => within other (List.mem_cons_of_mem _ later)

theorem terminateLast_applyAll (ended : ∀ c ∈ changes, c.Ended)
    (within : ∀ c ∈ changes, c.line < lines.length ∧ c.kind ≠ .insert) :
    terminateLast (changes.foldl applyTo lines) =
      changes.foldl applyTo (terminateLast lines) := by
  induction changes generalizing lines with
  | nil => rfl
  | cons c rest ih =>
      have ⟨below, kept⟩ := within c (List.mem_cons_self ..)
      have replaced := endsLine_replacement (ended c (List.mem_cons_self ..))
      have below' : c.line < (terminateLast lines).length := by rwa [length_terminateLast]
      rw [List.foldl_cons, List.foldl_cons, applyTo_within below kept, applyTo_within below' kept,
        ← terminateLast_set lines c.line replaced]
      refine ih (fun other later => ended other (List.mem_cons_of_mem _ later)) ?_
      rw [List.length_set]
      exact fun other later => within other (List.mem_cons_of_mem _ later)

end Within

section Past

variable {changes : List Change}

theorem showAll_past {shown : Table Nat String}
    (above : ∀ c ∈ changes, ∀ line ∈ shown.keys, line < c.line)
    (sorted : changes.Pairwise fun a b => a.line < b.line) :
    (changes.foldl showOn shown).entries =
      shown.entries ++ changes.map fun c => (c.line, c.replacement) := by
  induction changes generalizing shown with
  | nil => simp
  | cons c rest ih =>
      have ⟨next, later⟩ := List.pairwise_cons.1 sorted
      have put : (shown.insert c.line c.replacement).entries =
          shown.entries ++ [(c.line, c.replacement)] :=
        shown.entries_insert_above c.replacement fun line listed =>
          Nat.compare_eq_lt.2 (above c (List.mem_cons_self ..) line listed)
      rw [List.foldl_cons, showOn, ih ?_ later, put]
      · simp
      · intro other member line listed
        rw [Table.keys, put, List.map_append, List.mem_append] at listed
        rcases listed with old | new
        · exact above other (List.mem_cons_of_mem _ member) line old
        · have here : line = c.line := by simpa using new
          rw [here]
          exact next other member

def appended (changes : List Change) : List String :=
  (changes.filter fun c => c.kind ≠ .delete).map replacement

-- Every change past the end makes the lines longer by one at most, and the next one is past them
-- still.
theorem applyAll_beyond {lines : List String} (ended : ∀ c ∈ changes, c.Ended)
    (past : ∀ c ∈ changes, lines.length ≤ c.line)
    (sorted : changes.Pairwise fun a b => a.line < b.line) :
    changes.foldl applyTo lines =
      (if appended changes = [] then lines else terminateLast lines) ++ appended changes := by
  induction changes generalizing lines with
  | nil => simp [appended]
  | cons c rest ih =>
      have ⟨next, later⟩ := List.pairwise_cons.1 sorted
      have ⟨beyond, further⟩ := List.forall_mem_cons.1 past
      have ⟨here, others⟩ := List.forall_mem_cons.1 ended
      by_cases deleted : c.kind = .delete
      · have same : c.applyTo lines = lines := by
          rw [applyTo, if_neg (Nat.not_lt.2 beyond), deleted]
        have none : appended (c :: rest) = appended rest := by simp [appended, deleted]
        rw [List.foldl_cons, same, ih others further later, none]
      · have grown : ∀ other ∈ rest, (terminateLast lines ++ [c.replacement]).length ≤ other.line := by
          intro other member
          have below := next other member
          rw [List.length_append, length_terminateLast, List.length_singleton]
          omega
        have first : appended (c :: rest) = c.replacement :: appended rest := by
          simp [appended, deleted]
        rw [List.foldl_cons, applyTo_past beyond deleted, ih others grown later,
          terminateLast_append_ended _ (endsLine_replacement here), ite_self, first,
          if_neg (List.cons_ne_nil _ _), List.append_assoc, List.singleton_append]

theorem applyAll_past {lines : List String} (ended : ∀ c ∈ changes, c.Ended)
    (past : ∀ c ∈ changes, lines.length ≤ c.line ∧ c.kind ≠ .delete)
    (sorted : changes.Pairwise fun a b => a.line < b.line)
    (terminated : terminateLast lines = lines) :
    changes.foldl applyTo lines = lines ++ changes.map replacement := by
  have kept : changes.filter (fun c => c.kind ≠ .delete) = changes :=
    List.filter_eq_self.2 fun c member => by simpa using (past c member).2
  rw [applyAll_beyond ended (fun c member => (past c member).1) sorted, terminated, ite_self,
    appended, kept]

end Past

theorem exists_split (place : Change → Nat) {changes : List Change}
    (sorted : changes.Pairwise fun a b => place a ≤ place b) (count : Nat) :
    ∃ inner outer, changes = inner ++ outer ∧
      (∀ c ∈ inner, place c < count) ∧ ∀ c ∈ outer, count ≤ place c := by
  induction changes with
  | nil => exact ⟨[], [], rfl, by simp, by simp⟩
  | cons c rest ih =>
      have ⟨next, later⟩ := List.pairwise_cons.1 sorted
      by_cases within : place c < count
      · obtain ⟨inner, outer, split, below, past⟩ := ih later
        refine ⟨c :: inner, outer, by rw [split, List.cons_append], ?_, past⟩
        exact fun other member => (List.mem_cons.1 member).elim (fun here => here ▸ within)
          (below other)
      · refine ⟨[], c :: rest, rfl, by simp, fun other member => ?_⟩
        rcases List.mem_cons.1 member with here | member
        · rw [here]
          exact Nat.not_lt.1 within
        · exact Nat.le_trans (Nat.not_lt.1 within) (next other member)

theorem showAll_eq_applyAll {inner rest : List Change} {c : Change} {lines : List String}
    (ended : ∀ other ∈ inner ++ c :: rest, other.Ended)
    (sorted : (c :: rest).Pairwise fun a b => a.line < b.line)
    (within : ∀ other ∈ inner, other.line < lines.length ∧ other.kind ≠ .insert)
    (past : ∀ other ∈ c :: rest, lines.length ≤ other.line ∧ other.kind ≠ .delete) :
    ((inner ++ c :: rest).foldl showOn (Table.enumerate (terminateLast lines))).values =
      (inner ++ c :: rest).foldl applyTo lines := by
  have ⟨first, later⟩ := List.forall_mem_append.1 ended
  have ⟨next, ordered⟩ := List.pairwise_cons.1 sorted
  have ⟨⟨far, kept⟩, further⟩ := List.forall_mem_cons.1 past
  have replaced := endsLine_replacement (later c (List.mem_cons_self ..))
  have within' : ∀ other ∈ inner, other.line < (terminateLast lines).length ∧
      other.kind ≠ .insert := by rwa [length_terminateLast]
  have length := length_applyAll_within within
  have length' := length_applyAll_within within'
  rw [length_terminateLast] at length'
  have above : ∀ other ∈ c :: rest,
      ∀ line ∈ (Table.enumerate (inner.foldl applyTo (terminateLast lines))).keys,
        line < other.line := by
    intro other member line listed
    have inside := Table.lt_of_mem_keys_enumerate listed
    rw [length'] at inside
    exact Nat.lt_of_lt_of_le inside (past other member).1
  have beyond : ∀ other ∈ rest,
      (inner.foldl applyTo (terminateLast lines) ++ [c.replacement]).length ≤ other.line ∧
        other.kind ≠ .delete := by
    intro other member
    have below := next other member
    refine ⟨?_, (further other member).2⟩
    rw [List.length_append, length', List.length_singleton]
    omega
  rw [List.foldl_append, List.foldl_append, showAll_within within', Table.values,
    showAll_past above sorted, List.map_append, ← Table.values, Table.values_enumerate]
  -- The first change past the end is where the last line is ended by an application too.
  rw [List.foldl_cons, applyTo_past (by rwa [length]) kept,
    terminateLast_applyAll first within,
    applyAll_past (List.forall_mem_cons.1 later).2 beyond ordered
      (terminateLast_append_ended _ replaced)]
  simp

end Change

namespace ChangeSet

def ground (set : ChangeSet) (lines : List String) : List String :=
  if set.changes.lastKey?.any fun last => lines.length ≤ last then terminateLast lines else lines

theorem overlay_eq (set : ChangeSet) (lines : List String) :
    set.overlay lines = set.toList.foldl Change.showOn (Table.enumerate (set.ground lines)) := rfl

theorem length_ground (set : ChangeSet) (lines : List String) :
    (set.ground lines).length = lines.length := by
  rw [ground]
  split
  · exact length_terminateLast lines
  · rfl

theorem Orderly.reachesPast_iff {set : ChangeSet} (orderly : set.Orderly) (count : Nat) :
    (set.changes.lastKey?.any fun last => count ≤ last) = true ↔
      ∃ c ∈ set.toList, count ≤ c.line := by
  constructor
  · intro reaches
    obtain ⟨key, found, past⟩ := (Option.any_eq_true _ _).1 reaches
    have listed : key ∈ set.toList.map Change.line := by
      rw [orderly.lines_toList]
      exact List.mem_of_getLast? found
    obtain ⟨c, member, here⟩ := List.mem_map.1 listed
    exact ⟨c, member, by simpa [here] using past⟩
  · rintro ⟨c, member, past⟩
    obtain ⟨last, _, found, most⟩ := orderly.exists_last member
    have below := most c member
    rw [found, Option.any_some, decide_eq_true_eq]
    omega

theorem get?_showAll (changes : List Change) (shown : Table Nat String) (line : Nat) :
    (changes.foldl Change.showOn shown).get? line =
      ((Change.latestAt changes line).map Change.replacement).or (shown.get? line) := by
  induction changes generalizing shown with
  | nil => rfl
  | cons c rest ih =>
      rw [List.foldl_cons, ih, Change.showOn, Table.get?_insert, Change.latestAt_cons]
      cases Change.latestAt rest line with
      | some other => rfl
      | none =>
          by_cases here : c.line = line
          · simp [here]
          · simp [here, Ne.symm here]

theorem Orderly.get?_overlay {set : ChangeSet} (orderly : set.Orderly) (lines : List String)
    (line : Nat) : (set.overlay lines).get? line =
      ((set.get? line).map Change.replacement).or (set.ground lines)[line]? := by
  rw [overlay_eq, get?_showAll, orderly.latestAt_toList, Table.get?_enumerate]

-- Nothing is inserted above the end of that many lines, and nothing deleted past it.
def KeepsPlaces (set : ChangeSet) (count : Nat) : Prop :=
  ∀ c ∈ set.toList, (c.kind = .insert → count ≤ c.line) ∧ (c.kind = .delete → c.line < count)

instance (set : ChangeSet) (count : Nat) : Decidable (set.KeepsPlaces count) :=
  inferInstanceAs (Decidable (∀ c ∈ set.toList, _))

theorem Orderly.values_overlay {set : ChangeSet} (orderly : set.Orderly) {lines : List String}
    (keeps : set.KeepsPlaces lines.length) : (set.overlay lines).values = set.apply lines := by
  have sorted := orderly.sorted
  obtain ⟨inner, outer, split, below, beyond⟩ :=
    Change.exists_split Change.line (sorted.imp Nat.le_of_lt) lines.length
  rw [KeepsPlaces, split] at keeps
  have within : ∀ c ∈ inner, c.line < lines.length ∧ c.kind ≠ .insert := by
    intro c member
    refine ⟨below c member, fun kind => ?_⟩
    have far := (keeps c (List.mem_append_left _ member)).1 kind
    exact absurd (below c member) (Nat.not_lt.2 far)
  have past : ∀ c ∈ outer, lines.length ≤ c.line ∧ c.kind ≠ .delete := by
    intro c member
    refine ⟨beyond c member, fun kind => ?_⟩
    have near := (keeps c (List.mem_append_right _ member)).2 kind
    exact absurd near (Nat.not_lt.2 (beyond c member))
  have reaches := orderly.reachesPast_iff lines.length
  rw [split] at reaches sorted
  rw [overlay_eq, apply, split, ground]
  -- The ground is the file as it is unless some change is past its end.
  cases outer with
  | nil =>
      have stays : ¬ ∃ c ∈ inner ++ [], lines.length ≤ c.line := by
        rintro ⟨c, member, far⟩
        rw [List.append_nil] at member
        exact absurd (below c member) (Nat.not_lt.2 far)
      rw [if_neg (mt reaches.1 stays), List.append_nil, Change.showAll_within within]
      exact Table.values_enumerate _
  | cons c rest =>
      have first : c ∈ inner ++ c :: rest := List.mem_append_right _ (List.mem_cons_self ..)
      have far := (past c (List.mem_cons_self ..)).1
      rw [if_pos (reaches.2 ⟨c, first, far⟩)]
      refine Change.showAll_eq_applyAll ?_ (List.pairwise_append.1 sorted).2.1 within past
      exact fun other member => orderly.ended_of_mem (split ▸ member)

end ChangeSet

end LineLedger
