import LineLedger.Proofs.Change.Overlay
import Mathlib.Data.List.Induction

set_option autoImplicit false

namespace LineLedger

section TerminateLast

theorem getElem?_terminateLast (lines : List String) (place : Nat) :
    (terminateLast lines)[place]? =
      lines[place]?.map fun line =>
        if place + 1 = lines.length then Text.terminated line else line := by
  induction lines using terminateLast.induct generalizing place with
  | case1 => rfl
  | case2 last =>
      cases place with
      | zero => rfl
      | succ below => simp [terminateLast]
  | case3 line rest more ih =>
      cases place with
      | zero =>
          have inner : rest.length ≠ 0 := fun none => more (List.length_eq_zero_iff.1 none)
          simp [terminateLast, inner]
      | succ below => simp [terminateLast, ih]

theorem terminateLast_insertIdx {lines : List String} {place : Nat} (within : place < lines.length)
    (text : String) :
    terminateLast (lines.insertIdx place text) = (terminateLast lines).insertIdx place text := by
  apply List.ext_getElem?
  intro other
  have width : (lines.insertIdx place text).length = lines.length + 1 := by
    rw [List.length_insertIdx, if_pos (Nat.le_of_lt within)]
  rw [getElem?_terminateLast, width, List.getElem?_insertIdx, List.getElem?_insertIdx,
    length_terminateLast, getElem?_terminateLast, getElem?_terminateLast]
  -- What is put in stands above the last line, which it moves down by one.
  rcases Nat.lt_trichotomy other place with above | here | below
  · have inner : other + 1 ≠ lines.length := by omega
    have outer : other ≠ lines.length := by omega
    simp [above, inner, outer]
  · simp [here, Nat.le_of_lt within, Nat.ne_of_lt within]
  · have shifted : other - 1 + 1 = lines.length ↔ other + 1 = lines.length + 1 := by omega
    simp [Nat.lt_asymm below, Nat.ne_of_gt below, shifted]

end TerminateLast

namespace Change

section Latest

theorem latestAt_append (first second : List Change) (line : Nat) :
    latestAt (first ++ second) line = (latestAt second line).or (latestAt first line) := by
  rw [latestAt, List.reverse_append, List.find?_append, ← latestAt, ← latestAt]

theorem latestAt_singleton (c : Change) (line : Nat) :
    latestAt [c] line = if c.line = line then some c else none := by
  by_cases here : c.line = line <;> simp [latestAt, here]

theorem latestAt_eq_none {changes : List Change} {line : Nat}
    (apart : ∀ c ∈ changes, c.line ≠ line) : latestAt changes line = none :=
  List.find?_eq_none.2 fun c member => by simpa using apart c (List.mem_reverse.1 member)

end Latest

def insertions (changes : List Change) : Nat := changes.countP fun c => c.kind = .insert

def insertionsBelow (changes : List Change) (line : Nat) : Nat :=
  changes.countP fun c => c.kind = .insert && c.line < line

def insertsAt (changes : List Change) (line : Nat) : Bool :=
  changes.any fun c => c.kind = .insert && c.line = line

def origin (changes : List Change) (place : Nat) : Nat := place - insertionsBelow changes place

section Counting

variable {changes : List Change}

theorem insertionsBelow_eq_insertions {line : Nat} (below : ∀ c ∈ changes, c.line < line) :
    insertionsBelow changes line = insertions changes :=
  List.countP_congr fun c member => by simp [below c member]

theorem insertionsBelow_append {inner outer : List Change} {line : Nat}
    (above : ∀ c ∈ outer, line ≤ c.line) :
    insertionsBelow (inner ++ outer) line = insertionsBelow inner line := by
  have none : insertionsBelow outer line = 0 :=
    List.countP_eq_zero.2 fun c member => by simp [above c member]
  rw [insertionsBelow, List.countP_append, ← insertionsBelow, ← insertionsBelow, none,
    Nat.add_zero]

theorem insertionsBelow_succ (sorted : changes.Pairwise fun a b => a.line < b.line) (line : Nat) :
    insertionsBelow changes (line + 1) =
      insertionsBelow changes line + if insertsAt changes line then 1 else 0 := by
  induction changes with
  | nil => rfl
  | cons c rest ih =>
      have ⟨above, later⟩ := List.pairwise_cons.1 sorted
      have count := ih later
      rw [insertionsBelow, insertionsBelow, List.countP_cons, List.countP_cons, ← insertionsBelow,
        ← insertionsBelow, count]
      have either : insertsAt (c :: rest) line =
          (c.kind = .insert && c.line = line || insertsAt rest line) := List.any_cons
      rw [either]
      by_cases here : c.line = line
      · -- The other changes are on later lines.
        have alone : insertsAt rest line = false := by
          refine List.any_eq_false.2 fun other member => ?_
          have further := above other member
          have apart : other.line ≠ line := by omega
          simp [apart]
        by_cases kind : c.kind = .insert <;> simp [here, kind, alone]
      · have same : c.line < line + 1 ↔ c.line < line := by omega
        simp only [here, same, decide_false, Bool.and_false, Bool.false_or]
        omega

theorem insertionsBelow_le (sorted : changes.Pairwise fun a b => a.line < b.line) (line : Nat) :
    insertionsBelow changes line ≤ line := by
  induction line with
  | zero => simp [insertionsBelow]
  | succ line ih =>
      rw [insertionsBelow_succ sorted]
      split <;> omega

theorem origin_le (sorted : changes.Pairwise fun a b => a.line < b.line) {line further : Nat}
    (below : line ≤ further) : origin changes line ≤ origin changes further := by
  induction below with
  | refl => exact Nat.le_refl _
  | @step further _ ih =>
      refine Nat.le_trans ih ?_
      rw [origin, origin, insertionsBelow_succ sorted]
      split <;> omega

theorem origins_range (sorted : changes.Pairwise fun a b => a.line < b.line) (count : Nat) :
    ((List.range count).filter fun place => !insertsAt changes place).map (origin changes) =
      List.range (origin changes count) := by
  induction count with
  | zero => simp [origin]
  | succ count ih =>
      have bound := insertionsBelow_le sorted count
      rw [List.range_succ, List.filter_append, List.map_append, ih]
      have next : origin changes (count + 1) =
          origin changes count + if insertsAt changes count then 0 else 1 := by
        rw [origin, origin, insertionsBelow_succ sorted]
        split <;> omega
      rw [next]
      by_cases inserted : insertsAt changes count = true <;> simp [inserted, List.range_succ]

end Counting

section Applying

variable {changes : List Change} {lines : List String}

theorem length_applyTo_past {c : Change} (past : lines.length ≤ c.line) :
    (c.applyTo lines).length ≤ c.line + 1 := by
  rw [applyTo, if_neg (Nat.not_lt.2 past)]
  split
  · omega
  · rw [List.length_append, length_terminateLast, List.length_singleton]
    omega
  · rw [List.length_append, length_terminateLast, List.length_singleton]
    omega

theorem length_applyTo_within {c : Change} (within : c.line < lines.length) :
    (c.applyTo lines).length = lines.length + if c.kind = .insert then 1 else 0 := by
  rw [applyTo, if_pos within]
  split
  · simp [*, List.length_insertIdx, Nat.le_of_lt within]
  · simp [*]
  · simp [*]

-- As long as every change is in range the lines grow by the insertions alone; after the first
-- that is not, they never reach the line of a later change.
theorem length_applyAll (sorted : changes.Pairwise fun a b => a.line < b.line)
    (lines : List String) :
    (changes.foldl applyTo lines).length = lines.length + insertions changes ∨
      ∀ line, (∀ c ∈ changes, c.line < line) →
        (changes.foldl applyTo lines).length ≤ line ∧ lines.length + insertions changes ≤ line := by
  -- From the back, since the last change meets the lines that all the others leave.
  induction changes using List.reverseRecOn with
  | nil => exact .inl rfl
  | append_singleton before c ih =>
      have ⟨ordered, _, below⟩ := List.pairwise_append.1 sorted
      have above : ∀ other ∈ before, other.line < c.line :=
        fun other member => below other member c (List.mem_singleton_self c)
      have count : insertions (before ++ [c]) =
          insertions before + if c.kind = .insert then 1 else 0 := by
        simp [insertions, List.countP_append, List.countP_singleton]
      have most : insertions (before ++ [c]) ≤ insertions before + 1 := by
        rw [count]
        split <;> omega
      rw [List.foldl_append, List.foldl_cons, List.foldl_nil]
      rcases ih ordered with grows | short
      · by_cases within : c.line < (before.foldl applyTo lines).length
        · refine .inl ?_
          rw [length_applyTo_within within, grows, count]
          omega
        · refine .inr fun line higher => ?_
          have here := higher c (by simp)
          have grown := length_applyTo_past (Nat.not_lt.1 within)
          omega
      · refine .inr fun line higher => ?_
        have here := higher c (by simp)
        have ⟨past, far⟩ := short c.line above
        have grown := length_applyTo_past past
        omega

theorem inRange_iff (sorted : changes.Pairwise fun a b => a.line < b.line)
    {before after : List Change} {c : Change} (split : changes = before ++ c :: after)
    (lines : List String) :
    c.line < (before.foldl applyTo lines).length ↔ origin changes c.line < lines.length := by
  have bound := insertionsBelow_le sorted c.line
  rw [split, List.pairwise_append, List.pairwise_cons] at sorted
  obtain ⟨ordered, ⟨next, _⟩, below⟩ := sorted
  have above : ∀ other ∈ before, other.line < c.line :=
    fun other member => below other member c (List.mem_cons_self ..)
  have count : insertionsBelow changes c.line = insertions before := by
    rw [split, insertionsBelow_append, insertionsBelow_eq_insertions above]
    exact List.forall_mem_cons.2
      ⟨Nat.le_refl _, fun other member => Nat.le_of_lt (next other member)⟩
  rw [origin, count]
  rw [count] at bound
  rcases length_applyAll ordered lines with grows | short
  · omega
  · have := short c.line above
    omega

theorem terminateLast_applyTo {c : Change} (ended : c.Ended) (within : c.line < lines.length) :
    terminateLast (c.applyTo lines) = c.applyTo (terminateLast lines) := by
  have replaced := endsLine_replacement ended
  rw [applyTo, applyTo, length_terminateLast, if_pos within, if_pos within]
  split
  · exact terminateLast_insertIdx within _
  · exact terminateLast_set lines c.line replaced
  · exact terminateLast_set lines c.line replaced

-- Every change names a line that is there when its turn comes.
def Fit (changes : List Change) (count : Nat) : Prop :=
  ∀ c ∈ changes, c.line < count + insertionsBelow changes c.line

theorem Fit.concat {before : List Change} {c : Change} {count : Nat}
    (fit : Fit (before ++ [c]) count)
    (sorted : (before ++ [c]).Pairwise fun a b => a.line < b.line) :
    Fit before count ∧ c.line < count + insertions before := by
  have ⟨_, _, below⟩ := List.pairwise_append.1 sorted
  have above : ∀ other ∈ before, other.line < c.line :=
    fun other member => below other member c (List.mem_singleton_self c)
  constructor
  · intro other member
    have here := fit other (List.mem_append_left _ member)
    rwa [insertionsBelow_append] at here
    exact List.forall_mem_singleton.2 (Nat.le_of_lt (above other member))
  · have here := fit c (by simp)
    rwa [insertionsBelow_append (by simp), insertionsBelow_eq_insertions above] at here

theorem length_applyAll_fit (sorted : changes.Pairwise fun a b => a.line < b.line)
    (fit : Fit changes lines.length) :
    (changes.foldl applyTo lines).length = lines.length + insertions changes := by
  induction changes using List.reverseRecOn with
  | nil => rfl
  | append_singleton before c ih =>
      have ⟨ordered, _, _⟩ := List.pairwise_append.1 sorted
      have ⟨earlier, within⟩ := fit.concat sorted
      have length := ih ordered earlier
      rw [← length] at within
      rw [List.foldl_append, List.foldl_cons, List.foldl_nil, length_applyTo_within within, length]
      simp [insertions, List.countP_append, List.countP_singleton, Nat.add_assoc]

theorem terminateLast_applyAll_fit (sorted : changes.Pairwise fun a b => a.line < b.line)
    (fit : Fit changes lines.length) (ended : ∀ c ∈ changes, c.Ended) :
    terminateLast (changes.foldl applyTo lines) = changes.foldl applyTo (terminateLast lines) := by
  induction changes using List.reverseRecOn with
  | nil => rfl
  | append_singleton before c ih =>
      have ⟨ordered, _, _⟩ := List.pairwise_append.1 sorted
      have ⟨earlier, within⟩ := fit.concat sorted
      have ⟨first, last⟩ := List.forall_mem_append.1 ended
      rw [← length_applyAll_fit ordered earlier] at within
      rw [List.foldl_append, List.foldl_append, ← ih ordered earlier first]
      exact terminateLast_applyTo (last c (List.mem_singleton_self c)) within

theorem getElem?_applyTo_within {c : Change} (within : c.line < lines.length) (place : Nat) :
    (c.applyTo lines)[place]? =
      if place < c.line then lines[place]?
      else if place = c.line then some c.replacement
      else lines[if c.kind = .insert then place - 1 else place]? := by
  have elsewhere : (lines.set c.line c.replacement)[place]? =
      if place < c.line then lines[place]?
      else if place = c.line then some c.replacement
      else lines[place]? := by
    rw [List.getElem?_set]
    rcases Nat.lt_trichotomy place c.line with above | here | below
    · simp [above, Nat.ne_of_gt above]
    · simp [here, within]
    · simp [Nat.lt_asymm below, Nat.ne_of_gt below, Nat.ne_of_lt below]
  rw [applyTo, if_pos within]
  cases kind : c.kind with
  | insert =>
      rw [List.getElem?_insertIdx]
      split
      · rfl
      · split
        · rename_i here
          rw [if_pos (here ▸ Nat.le_of_lt within)]
        · rfl
  | delete => exact elsewhere
  | edit => exact elsewhere

theorem getElem?_applyAll_fit (sorted : changes.Pairwise fun a b => a.line < b.line)
    (fit : Fit changes lines.length) (place : Nat) :
    (changes.foldl applyTo lines)[place]? =
      ((latestAt changes place).map replacement).or lines[origin changes place]? := by
  induction changes using List.reverseRecOn generalizing place with
  | nil => rfl
  | append_singleton before c ih =>
      have ⟨ordered, _, below⟩ := List.pairwise_append.1 sorted
      have above : ∀ other ∈ before, other.line < c.line :=
        fun other member => below other member c (List.mem_singleton_self c)
      have ⟨earlier, within⟩ := fit.concat sorted
      rw [← length_applyAll_fit ordered earlier] at within
      have later := ih ordered earlier
      rw [List.foldl_append, List.foldl_cons, List.foldl_nil, getElem?_applyTo_within within,
        latestAt_append, latestAt_singleton]
      rcases Nat.lt_trichotomy place c.line with higher | here | lower
      · rw [if_pos higher, if_neg (Nat.ne_of_gt higher), later, origin, origin,
          insertionsBelow_append (List.forall_mem_singleton.2 (Nat.le_of_lt higher))]
        rfl
      · rw [if_neg (Nat.not_lt.2 (Nat.le_of_eq here.symm)), if_pos here, if_pos here.symm]
        rfl
      · -- Below the last change only the original lines are left, moved down by an insertion.
        have free : ∀ further, c.line ≤ further → latestAt before further = none ∧
            insertionsBelow before further = insertions before := by
          intro further far
          have under : ∀ other ∈ before, other.line < further :=
            fun other member => Nat.lt_of_lt_of_le (above other member) far
          exact ⟨latestAt_eq_none fun other member => Nat.ne_of_lt (under other member),
            insertionsBelow_eq_insertions under⟩
        have count : insertionsBelow (before ++ [c]) place =
            insertions before + if c.kind = .insert then 1 else 0 := by
          rw [insertionsBelow, List.countP_append, ← insertionsBelow, (free place (by omega)).2,
            List.countP_singleton]
          simp [lower]
        rw [if_neg (Nat.lt_asymm lower), if_neg (Nat.ne_of_gt lower),
          if_neg (Nat.ne_of_lt lower), (free place (by omega)).1, later, origin, origin, count]
        split
        · rw [(free (place - 1) (by omega)).1, (free (place - 1) (by omega)).2,
            Nat.sub_sub, Nat.add_comm 1]
          rfl
        · rw [(free place (by omega)).1, (free place (by omega)).2]
          rfl

theorem Fit.below {count : Nat} (fit : Fit changes count) :
    ∀ c ∈ changes, c.line < count + insertions changes := by
  intro c member
  have here := fit c member
  have most : insertionsBelow changes c.line ≤ insertions changes :=
    List.countP_mono_left fun other _ both => by
      rw [Bool.and_eq_true] at both
      exact both.1
  omega

-- Whatever is put after the end, the last line is ended just as well before the changes in range.
theorem applyAll_append {inner outer : List Change} (ended : ∀ c ∈ inner ++ outer, c.Ended)
    (sorted : (inner ++ outer).Pairwise fun a b => a.line < b.line) (fit : Fit inner lines.length)
    (past : ∀ c ∈ outer, lines.length + insertions inner ≤ c.line) :
    (inner ++ outer).foldl applyTo lines =
      inner.foldl applyTo (if appended outer = [] then lines else terminateLast lines) ++
        appended outer := by
  have ⟨first, later, _⟩ := List.pairwise_append.1 sorted
  have ⟨put, added⟩ := List.forall_mem_append.1 ended
  rw [← length_applyAll_fit first fit] at past
  rw [List.foldl_append, applyAll_beyond added past later,
    terminateLast_applyAll_fit first fit put]
  split <;> rfl

end Applying

end Change

namespace ChangeSet

def insertionsBelow (set : ChangeSet) (line : Nat) : Nat :=
  Change.insertionsBelow set.toList line

def origin (set : ChangeSet) (place : Nat) : Nat := place - set.insertionsBelow place

def InRange (set : ChangeSet) (count line : Nat) : Prop := set.origin line < count

instance (set : ChangeSet) (count line : Nat) : Decidable (set.InRange count line) :=
  inferInstanceAs (Decidable (set.origin line < count))

def moving (set : ChangeSet) (count : Nat) : List Change :=
  set.toList.filter fun c => c.kind = .insert ∧ set.InRange count c.line

def height (set : ChangeSet) (count : Nat) : Nat := count + (set.moving count).length

def appended (set : ChangeSet) (count : Nat) : List String :=
  Change.appended (set.toList.filter fun c => ¬ set.InRange count c.line)

def footing (set : ChangeSet) (lines : List String) : List String :=
  if set.appended lines.length = [] then lines else terminateLast lines

theorem length_footing (set : ChangeSet) (lines : List String) :
    (set.footing lines).length = lines.length := by
  rw [footing, apply_ite List.length, length_terminateLast, ite_self]

theorem getElem?_footing (set : ChangeSet) (lines : List String) (place : Nat) :
    (set.footing lines)[place]? =
      lines[place]?.map fun line =>
        if place + 1 = lines.length ∧ set.appended lines.length ≠ [] then Text.terminated line
        else line := by
  rw [footing]
  split
  · simp [*]
  · simp [*, getElem?_terminateLast]

structure Cut (set : ChangeSet) (count : Nat) (inner outer : List Change) : Prop where
  split : set.toList = inner ++ outer
  within : ∀ c ∈ inner, set.InRange count c.line
  without : ∀ c ∈ outer, ¬ set.InRange count c.line
  fit : Change.Fit inner count
  past : ∀ c ∈ outer, count + Change.insertions inner ≤ c.line

theorem Orderly.exists_cut {set : ChangeSet} (orderly : set.Orderly) (count : Nat) :
    ∃ inner outer, set.Cut count inner outer := by
  have sorted := orderly.sorted
  obtain ⟨inner, outer, split, within, past⟩ := Change.exists_split
    (fun c => set.origin c.line)
    (sorted.imp fun below => Change.origin_le sorted (Nat.le_of_lt below)) count
  have ⟨_, _, apart⟩ := List.pairwise_append.1 (split ▸ sorted)
  refine ⟨inner, outer, split, within, fun c member => Nat.not_lt.2 (past c member),
    fun c member => ?_, fun c member => ?_⟩
  · have here : set.origin c.line < count := within c member
    have above : ∀ other ∈ outer, c.line ≤ other.line :=
      fun other later => Nat.le_of_lt (apart c member other later)
    rw [origin, insertionsBelow, split, Change.insertionsBelow_append above] at here
    omega
  · have here : count ≤ set.origin c.line := past c member
    have most := Change.insertionsBelow_le sorted c.line
    have all : Change.insertions inner ≤ Change.insertionsBelow set.toList c.line := by
      rw [← Change.insertionsBelow_eq_insertions fun other earlier => apart other earlier c member,
        split, Change.insertionsBelow, Change.insertionsBelow, List.countP_append]
      exact Nat.le_add_right _ _
    rw [origin, insertionsBelow] at here
    omega

namespace Cut

variable {set : ChangeSet} {count : Nat} {inner outer : List Change}

theorem height_eq (cut : set.Cut count inner outer) :
    set.height count = count + Change.insertions inner := by
  have inserted : set.moving count = inner.filter fun c => c.kind = .insert := by
    have none : outer.filter (fun c => c.kind = .insert ∧ set.InRange count c.line) = [] :=
      List.filter_eq_nil_iff.2 fun c member => by simp [cut.without c member]
    rw [moving, cut.split, List.filter_append, none, List.append_nil]
    exact List.filter_congr fun c member => by simp [cut.within c member]
  rw [height, inserted, Change.insertions, List.countP_eq_length_filter]

theorem appended_eq (cut : set.Cut count inner outer) :
    set.appended count = Change.appended outer := by
  rw [appended, cut.split, List.filter_append, List.filter_eq_nil_iff.2, List.nil_append,
    List.filter_eq_self.2]
  · exact fun c member => by simp [cut.without c member]
  · exact fun c member => by simp [cut.within c member]

theorem near (cut : set.Cut count inner outer) : ∀ c ∈ inner, c.line < set.height count :=
  fun c member => cut.height_eq ▸ cut.fit.below c member

theorem far (cut : set.Cut count inner outer) : ∀ c ∈ outer, set.height count ≤ c.line :=
  fun c member => cut.height_eq ▸ cut.past c member

theorem insertionsBelow_eq (cut : set.Cut count inner outer) {place : Nat}
    (bound : place ≤ set.height count) :
    set.insertionsBelow place = Change.insertionsBelow inner place := by
  rw [insertionsBelow, cut.split, Change.insertionsBelow_append]
  exact fun c member => Nat.le_trans bound (cut.far c member)

theorem origin_height (cut : set.Cut count inner outer) :
    set.origin (set.height count) = count := by
  rw [origin, cut.insertionsBelow_eq (Nat.le_refl _),
    Change.insertionsBelow_eq_insertions cut.near, cut.height_eq, Nat.add_sub_cancel]

theorem latestAt_eq (cut : set.Cut count inner outer) (orderly : set.Orderly) {place : Nat}
    (above : place < set.height count) : Change.latestAt inner place = set.get? place := by
  have none : Change.latestAt outer place = none := Change.latestAt_eq_none fun c member =>
    Nat.ne_of_gt (Nat.lt_of_lt_of_le above (cut.far c member))
  rw [← orderly.latestAt_toList, cut.split, Change.latestAt_append, none, Option.none_or]

variable {lines : List String}

theorem apply_eq (cut : set.Cut lines.length inner outer) (orderly : set.Orderly) :
    set.apply lines =
      inner.foldl Change.applyTo (set.footing lines) ++ set.appended lines.length := by
  have sorted := orderly.sorted
  rw [cut.split] at sorted
  rw [footing, cut.appended_eq, apply, cut.split]
  refine Change.applyAll_append (fun c member => ?_) sorted cut.fit cut.past
  exact orderly.ended_of_mem (cut.split ▸ member)

theorem length_inner (cut : set.Cut lines.length inner outer) (orderly : set.Orderly) :
    (inner.foldl Change.applyTo (set.footing lines)).length = set.height lines.length := by
  have ⟨first, _, _⟩ := List.pairwise_append.1 (cut.split ▸ orderly.sorted)
  have fit := cut.fit
  rw [← set.length_footing lines] at fit
  rw [Change.length_applyAll_fit first fit, set.length_footing, cut.height_eq]

theorem getElem?_apply (cut : set.Cut lines.length inner outer) (orderly : set.Orderly)
    {place : Nat} (above : place < set.height lines.length) :
    (set.apply lines)[place]? =
      ((set.get? place).map Change.replacement).or (set.footing lines)[set.origin place]? := by
  have ⟨first, _, _⟩ := List.pairwise_append.1 (cut.split ▸ orderly.sorted)
  have fit := cut.fit
  rw [← set.length_footing lines] at fit
  rw [cut.apply_eq orderly, List.getElem?_append_left (by rwa [cut.length_inner orderly]),
    Change.getElem?_applyAll_fit first fit, cut.latestAt_eq orderly above, origin,
    cut.insertionsBelow_eq (Nat.le_of_lt above), Change.origin]

end Cut

theorem Orderly.insertsAt_iff {set : ChangeSet} (orderly : set.Orderly) (place : Nat) :
    Change.insertsAt set.toList place = true ↔
      (set.get? place).map Change.kind = some .insert := by
  simp only [Change.insertsAt, List.any_eq_true, Bool.and_eq_true, decide_eq_true_eq,
    Option.map_eq_some_iff]
  constructor
  · rintro ⟨c, member, kind, rfl⟩
    exact ⟨c, (orderly.mem_toList c).1 member, kind⟩
  · rintro ⟨c, found, kind⟩
    have here := orderly.placed place c found
    exact ⟨c, (orderly.mem_toList c).2 (by rwa [here]), kind, here⟩

theorem apply_entries {set : ChangeSet} (recorded : set.Recorded) (text : String) :
    let lines := Text.lines text
    let entries := set.apply lines
    let height := set.height lines.length
    let appended := set.appended lines.length
    (set.toList.Pairwise fun a b => a.line < b.line) ∧
    (∀ before c after, set.toList = before ++ c :: after →
      (c.line < (before.foldl Change.applyTo lines).length ↔
        set.InRange lines.length c.line)) ∧
    (∀ line further, line ≤ further → ¬ set.InRange lines.length line →
      ¬ set.InRange lines.length further) ∧
    (∀ place < height,
      match set.get? place with
      | some c => set.InRange lines.length place ∧ entries[place]? = some c.replacement
      | none => ∃ line, lines[set.origin place]? = some line ∧
          entries[place]? = some (
            if set.origin place + 1 = lines.length ∧ appended ≠ [] then Text.terminated line
            else line)) ∧
    entries.drop height = appended ∧ entries.length = height + appended.length ∧
    -- What is not inserted comes from the original lines, from each once and in their order.
    ((List.range height).filter fun place =>
      (set.get? place).map Change.kind ≠ some .insert).map set.origin =
        List.range lines.length := by
  intro lines entries height appended
  have orderly := set.recorded_iff_orderly.1 recorded
  have sorted := orderly.sorted
  obtain ⟨inner, outer, cut⟩ := orderly.exists_cut lines.length
  have whole : entries = _ := cut.apply_eq orderly
  have length := cut.length_inner orderly
  refine ⟨sorted, fun before c after split => Change.inRange_iff sorted split lines,
    fun line further below => mt (Nat.lt_of_le_of_lt (Change.origin_le sorted below)),
    fun place above => ?_, ?_, ?_, ?_⟩
  · have found := cut.getElem?_apply orderly above
    cases changed : set.get? place with
    | some c =>
        rw [changed] at found
        refine ⟨?_, found⟩
        have here := orderly.placed place c changed
        have member := (orderly.mem_toList c).2 (by rwa [here])
        rw [cut.split, List.mem_append] at member
        rcases member with inside | outside
        · exact here ▸ cut.within c inside
        · exact absurd (cut.far c outside) (Nat.not_le.2 (here ▸ above))
    | none =>
        have within : place < entries.length := by
          rw [whole, List.length_append, length]
          exact Nat.lt_add_right _ above
        rw [changed, Option.map_none, Option.none_or, set.getElem?_footing,
          List.getElem?_eq_getElem within] at found
        obtain ⟨line, present, same⟩ := Option.map_eq_some_iff.1 found.symm
        exact ⟨line, present, by rw [same, List.getElem?_eq_getElem within]⟩
  · rw [whole]
    exact List.drop_left' length
  · rw [whole, List.length_append, length]
  · have places := Change.origins_range sorted height
    have top : Change.origin set.toList height = lines.length := cut.origin_height
    rw [top] at places
    rw [← places]
    congr 1
    refine List.filter_congr fun place _ => ?_
    have inserted := orderly.insertsAt_iff place
    cases here : Change.insertsAt set.toList place <;> simp_all

-- The deletion blanks the line that the insertion moved down, and the last line is ended before
-- the third change.
theorem apply_entries_moved :
    let changes : List Change := [.insertion 0 "zero", .deletion 1 none, .insertion 5 "three"]
    let set := changes.foldl ChangeSet.record (.empty ⟨"notes"⟩)
    set.Recorded ∧ Text.lines "one\ntwo" = ["one\n", "two"] ∧
    set.apply (Text.lines "one\ntwo") = ["zero\n", "\n", "two\n", "three\n"] ∧
    set.height 2 = 3 ∧ set.appended 2 = ["three\n"] ∧ set.origin 2 = 1 ∧
    ∃ line, (Text.lines "one\ntwo")[set.origin 2]? = some line ∧
      (set.apply (Text.lines "one\ntwo"))[2]? = some (
        if set.origin 2 + 1 = 2 ∧ set.appended 2 ≠ [] then Text.terminated line else line) := by
  intro changes set
  have recorded : set.Recorded := by
    refine ⟨changes, fun c member => ?_, rfl⟩
    simp only [changes, List.mem_cons, List.not_mem_nil, or_false] at member
    rcases member with rfl | rfl | rfl <;> exact ⟨_, _, _, _, rfl⟩
  have ⟨_, _, _, entries, _⟩ := apply_entries recorded "one\ntwo"
  exact ⟨recorded, rfl, rfl, rfl, rfl, rfl, entries 2 (by decide)⟩

end ChangeSet

end LineLedger
