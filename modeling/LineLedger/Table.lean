set_option autoImplicit false

namespace LineLedger

def Ascending {κ α : Type} [Ord κ] (entries : List (κ × α)) : Prop :=
  entries.Pairwise fun a b => compare a.1 b.1 = .lt

structure Table (κ α : Type) [Ord κ] where
  entries : List (κ × α)
  ascending : Ascending entries

namespace Table

section Entries

variable {κ α : Type} [Ord κ]

def find (k : κ) : List (κ × α) → Option α
  | [] => none
  | (k', v) :: rest => if compare k k' = .eq then some v else find k rest

def put (k : κ) (v : α) : List (κ × α) → List (κ × α)
  | [] => [(k, v)]
  | (k', v') :: rest =>
    match compare k k' with
    | .lt => (k, v) :: (k', v') :: rest
    | .eq => (k, v) :: rest
    | .gt => (k', v') :: put k v rest

def drop (k : κ) (entries : List (κ × α)) : List (κ × α) :=
  entries.filter fun e => compare k e.1 != .eq

theorem mem_put {k : κ} {v : α} {entries : List (κ × α)} {e : κ × α}
    (present : e ∈ put k v entries) : e = (k, v) ∨ e ∈ entries := by
  induction entries with
  | nil => simpa [put] using present
  | cons head rest ih =>
      obtain ⟨k', v'⟩ := head
      rw [put] at present
      split at present
      · simpa using present
      · rcases List.mem_cons.1 present with same | old
        · exact .inl same
        · exact .inr (List.mem_cons_of_mem _ old)
      · rcases List.mem_cons.1 present with same | old
        · exact .inr (same ▸ List.mem_cons_self ..)
        · exact (ih old).imp_right (List.mem_cons_of_mem _)

theorem ascending_drop (k : κ) {entries : List (κ × α)} (ordered : Ascending entries) :
    Ascending (drop k entries) :=
  List.Pairwise.sublist List.filter_sublist ordered

theorem find_eq_none_of_before {k : κ} {entries : List (κ × α)}
    (before : ∀ e ∈ entries, compare k e.1 = .lt) : find k entries = none := by
  induction entries with
  | nil => rfl
  | cons head rest ih =>
      have here := before head (List.mem_cons_self ..)
      rw [find, if_neg (by simp [here])]
      exact ih fun e present => before e (List.mem_cons_of_mem _ present)

end Entries

section Order

variable {κ α : Type} [Ord κ] [Std.LawfulEqOrd κ]

theorem find_put (k l : κ) (v : α) {entries : List (κ × α)} (ordered : Ascending entries) :
    find l (put k v entries) = if compare l k = .eq then some v else find l entries := by
  induction entries with
  | nil => simp [put, find]
  | cons head rest ih =>
      obtain ⟨k', v'⟩ := head
      have later := List.pairwise_cons.1 ordered
      rw [put]
      split
      · simp [find]
      · rename_i same
        have same := Std.LawfulEqOrd.eq_of_compare same
        subst same
        by_cases here : compare l k = .eq <;> simp [find, here]
      · rename_i above
        by_cases here : compare l k' = .eq
        · have here := Std.LawfulEqOrd.eq_of_compare here
          subst here
          have apart : compare l k ≠ .eq := by
            intro same
            have same := Std.LawfulEqOrd.eq_of_compare same
            subst same
            simp at above
          simp [find, apart]
        · simp [find, here, ih later.2]

theorem find_drop (k l : κ) (entries : List (κ × α)) :
    find l (drop k entries) = if compare l k = .eq then none else find l entries := by
  induction entries with
  | nil => simp [drop, find]
  | cons head rest ih =>
      obtain ⟨k', v'⟩ := head
      rw [drop] at ih ⊢
      by_cases dropped : compare k k' = .eq
      · have same := Std.LawfulEqOrd.eq_of_compare dropped
        subst same
        rw [List.filter_cons_of_neg (by simp), ih]
        by_cases here : compare l k = .eq <;> simp [find, here]
      · rw [List.filter_cons_of_pos (by simpa using dropped)]
        by_cases here : compare l k' = .eq
        · have same := Std.LawfulEqOrd.eq_of_compare here
          subst same
          have apart : compare l k ≠ .eq := fun same => by
            have same := Std.LawfulEqOrd.eq_of_compare same
            subst same
            simp at dropped
          simp [find, apart]
        · simp [find, here, ih]

theorem find_eq_some_iff {k : κ} {v : α} {entries : List (κ × α)} (ordered : Ascending entries) :
    find k entries = some v ↔ (k, v) ∈ entries := by
  induction entries with
  | nil => simp [find]
  | cons head rest ih =>
      obtain ⟨k', v'⟩ := head
      have later := List.pairwise_cons.1 ordered
      by_cases here : compare k k' = .eq
      · have same := Std.LawfulEqOrd.eq_of_compare here
        subst same
        simp only [find, Std.ReflCmp.compare_self, if_true, Option.some.injEq, List.mem_cons,
          Prod.mk.injEq, true_and]
        constructor
        · intro same
          exact .inl same.symm
        · rintro (same | old)
          · exact same.symm
          · exact absurd (later.1 _ old) (by simp)
      · rw [find, if_neg here, ih later.2, List.mem_cons]
        constructor
        · exact .inr
        · rintro (same | old)
          · cases same
            simp at here
          · exact old

variable [Std.TransOrd κ]

theorem ascending_put (k : κ) (v : α) {entries : List (κ × α)} (ordered : Ascending entries) :
    Ascending (put k v entries) := by
  induction entries with
  | nil => simp [put, Ascending]
  | cons head rest ih =>
      obtain ⟨k', v'⟩ := head
      have later := List.pairwise_cons.1 ordered
      rw [put]
      split
      · rename_i before
        refine List.pairwise_cons.2 ⟨fun e present => ?_, ordered⟩
        rcases List.mem_cons.1 present with same | old
        · exact same ▸ before
        · exact Std.TransCmp.lt_trans before (later.1 e old)
      · rename_i same
        have same := Std.LawfulEqOrd.eq_of_compare same
        subst same
        exact List.pairwise_cons.2 later
      · rename_i above
        refine List.pairwise_cons.2 ⟨fun e present => ?_, ih later.2⟩
        rcases mem_put present with same | old
        · exact same ▸ Std.OrientedCmp.lt_of_gt above
        · exact later.1 e old

end Order

variable {κ α : Type} [Ord κ]

instance [DecidableEq κ] [DecidableEq α] : DecidableEq (Table κ α) := fun a b =>
  decidable_of_iff (a.entries = b.entries) (by cases a; cases b; simp)

def empty : Table κ α := ⟨[], List.Pairwise.nil⟩

instance : Inhabited (Table κ α) := ⟨empty⟩

def get? (t : Table κ α) (k : κ) : Option α := find k t.entries

def contains (t : Table κ α) (k : κ) : Bool := (t.get? k).isSome

def keys (t : Table κ α) : List κ := t.entries.map Prod.fst

def values (t : Table κ α) : List α := t.entries.map Prod.snd

def size (t : Table κ α) : Nat := t.entries.length

def isEmpty (t : Table κ α) : Bool := t.entries.isEmpty

def lastKey? (t : Table κ α) : Option κ := t.keys.getLast?

def erase (t : Table κ α) (k : κ) : Table κ α :=
  ⟨drop k t.entries, ascending_drop k t.ascending⟩

def filter (t : Table κ α) (keep : κ → Bool) : Table κ α :=
  ⟨t.entries.filter fun e => keep e.1, t.ascending.sublist List.filter_sublist⟩

@[simp] theorem get?_empty (k : κ) : (empty : Table κ α).get? k = none := rfl

theorem ascending_enumerate {α : Type} (items : List α) (first : Nat) :
    Ascending ((items.zipIdx first).map Prod.swap) := by
  induction items generalizing first with
  | nil => exact List.Pairwise.nil
  | cons item rest ih =>
      refine List.pairwise_cons.2 ⟨fun e present => ?_, ih (first + 1)⟩
      obtain ⟨⟨found, place⟩, member, same⟩ := List.mem_map.1 present
      subst same
      have := List.le_snd_of_mem_zipIdx member
      exact Nat.compare_eq_lt.2 (Nat.lt_of_succ_le (by simpa using this))

def enumerate {α : Type} (items : List α) : Table Nat α :=
  ⟨items.zipIdx.map Prod.swap, ascending_enumerate items 0⟩

section Insert

variable [Std.LawfulEqOrd κ]

theorem get?_erase [DecidableEq κ] (t : Table κ α) (k l : κ) :
    (t.erase k).get? l = if l = k then none else t.get? l := by
  have := find_drop k l t.entries
  simpa [get?, erase] using this

theorem get?_eq_some_iff (t : Table κ α) (k : κ) (v : α) :
    t.get? k = some v ↔ (k, v) ∈ t.entries :=
  find_eq_some_iff t.ascending

theorem get?_filter (t : Table κ α) (keep : κ → Bool) (k : κ) :
    (t.filter keep).get? k = if keep k then t.get? k else none := by
  apply Option.ext
  intro v
  rw [get?_eq_some_iff, filter, List.mem_filter, ← get?_eq_some_iff]
  split <;> simp [*]

variable [Std.TransOrd κ]

def insert (t : Table κ α) (k : κ) (v : α) : Table κ α :=
  ⟨put k v t.entries, ascending_put k v t.ascending⟩

-- Of two entries with one key the later counts.
def ofList (entries : List (κ × α)) : Table κ α :=
  entries.foldl (fun t e => t.insert e.1 e.2) empty

theorem get?_insert [DecidableEq κ] (t : Table κ α) (k l : κ) (v : α) :
    (t.insert k v).get? l = if l = k then some v else t.get? l := by
  have := find_put k l v t.ascending
  simpa [get?, insert] using this

theorem head_eq_of_find {x y : κ × α} {xs ys : List (κ × α)} (left : Ascending (x :: xs))
    (right : Ascending (y :: ys)) (same : ∀ k, find k (x :: xs) = find k (y :: ys)) : x = y := by
  have first : x ∈ y :: ys := by
    rw [← find_eq_some_iff right, ← same x.1]
    simp [find]
  have second : y ∈ x :: xs := by
    rw [← find_eq_some_iff left, same y.1]
    simp [find]
  rcases List.mem_cons.1 first with eq | later
  · exact eq
  rcases List.mem_cons.1 second with eq | later'
  · exact eq.symm
  -- Each would stand behind the other, and so have the larger key.
  have up := (List.pairwise_cons.1 right).1 _ later
  have down := (List.pairwise_cons.1 left).1 _ later'
  have := Std.OrientedCmp.gt_of_lt up
  simp [down] at this

theorem eq_of_find {xs ys : List (κ × α)} (left : Ascending xs) (right : Ascending ys)
    (same : ∀ k, find k xs = find k ys) : xs = ys := by
  induction xs generalizing ys with
  | nil =>
      cases ys with
      | nil => rfl
      | cons y ys => simpa [find] using same y.1
  | cons x xs ih =>
      cases ys with
      | nil => simpa [find] using same x.1
      | cons y ys =>
          cases head_eq_of_find left right same
          have ⟨before, later⟩ := List.pairwise_cons.1 left
          have ⟨before', later'⟩ := List.pairwise_cons.1 right
          rw [ih later later']
          intro k
          by_cases here : compare k x.1 = .eq
          · cases Std.LawfulEqOrd.eq_of_compare here
            rw [find_eq_none_of_before before, find_eq_none_of_before before']
          · simpa [find, here] using same k

theorem ext_get? {s t : Table κ α} (same : ∀ k, s.get? k = t.get? k) : s = t := by
  cases s
  cases t
  simp only [Table.mk.injEq]
  exact eq_of_find ‹_› ‹_› same

end Insert

end Table

end LineLedger
