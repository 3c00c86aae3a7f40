import LineLedger.Table

set_option autoImplicit false

namespace LineLedger

theorem mapM_map_eq_some {α β : Type} {encode : α → β} {decode : β → Option α} {items : List α}
    (back : ∀ a ∈ items, decode (encode a) = some a) :
    (items.map encode).mapM decode = some items := by
  induction items with
  | nil => rfl
  | cons a rest ih =>
      have ⟨here, others⟩ := List.forall_mem_cons.1 back
      rw [List.map_cons, List.mapM_cons, here, ih others]
      rfl

namespace Table

section Listing

variable {κ α : Type} [Ord κ]

theorem keys_ascending (t : Table κ α) : t.keys.Pairwise fun a b => compare a b = .lt :=
  List.pairwise_map.2 t.ascending

theorem length_keys (t : Table κ α) : t.keys.length = t.size := by
  simp [keys, size]

theorem keys_eq_nil_iff (t : Table κ α) : t.keys = [] ↔ t.isEmpty = true := by
  simp [keys, isEmpty]

theorem get?_eq_none_of_isEmpty {t : Table κ α} (empty : t.isEmpty = true) (k : κ) :
    t.get? k = none := by
  have entries : t.entries = [] := List.isEmpty_iff.1 empty
  simp [get?, entries, find]

variable [Std.LawfulEqOrd κ]

theorem nodup_keys (t : Table κ α) : t.keys.Nodup := by
  refine t.keys_ascending.imp fun {a b} below same => ?_
  subst same
  simp at below

theorem mem_values_iff (t : Table κ α) (v : α) : v ∈ t.values ↔ ∃ k, t.get? k = some v := by
  simp [values, get?_eq_some_iff]

theorem mem_keys_iff (t : Table κ α) (k : κ) : k ∈ t.keys ↔ ∃ v, t.get? k = some v := by
  simp [keys, get?_eq_some_iff]

end Listing

section Change

variable {κ α : Type} [Ord κ] [Std.LawfulEqOrd κ] [Std.TransOrd κ] [DecidableEq κ]

theorem erase_of_get?_eq_none {t : Table κ α} {k : κ} (absent : t.get? k = none) :
    t.erase k = t := by
  apply ext_get?
  intro l
  rw [get?_erase]
  split
  · rename_i same
    rw [same, absent]
  · rfl

theorem isEmpty_insert (t : Table κ α) (k : κ) (v : α) : (t.insert k v).isEmpty = false := by
  cases empty : (t.insert k v).isEmpty with
  | false => rfl
  | true =>
      have absent := get?_eq_none_of_isEmpty empty k
      simp [get?_insert] at absent

theorem mem_keys_insert (t : Table κ α) (k l : κ) (v : α) :
    l ∈ (t.insert k v).keys ↔ l = k ∨ l ∈ t.keys := by
  rw [mem_keys_iff, get?_insert, mem_keys_iff]
  by_cases here : l = k <;> simp [here]

theorem size_insert_of_absent {t : Table κ α} {k : κ} (absent : t.get? k = none) (v : α) :
    (t.insert k v).size = t.size + 1 := by
  have fresh : k ∉ t.keys := by simp [mem_keys_iff, absent]
  have listed : ∀ l, l ∈ (t.insert k v).keys ↔ l ∈ k :: t.keys := fun l => by
    rw [mem_keys_insert, List.mem_cons]
  have same := (List.perm_ext_iff_of_nodup (nodup_keys _)
    (List.nodup_cons.2 ⟨fresh, t.nodup_keys⟩)).2 listed
  simpa [length_keys] using same.length_eq

theorem mem_keys_ofList (entries : List (κ × α)) (k : κ) :
    k ∈ (ofList entries).keys ↔ k ∈ entries.map Prod.fst := by
  have general : ∀ t : Table κ α, k ∈ (entries.foldl (fun t e => t.insert e.1 e.2) t).keys ↔
      k ∈ t.keys ∨ k ∈ entries.map Prod.fst := by
    induction entries with
    | nil => simp
    | cons e rest ih =>
        intro t
        rw [List.foldl_cons, ih, mem_keys_insert, List.map_cons, List.mem_cons, or_assoc,
          or_left_comm]
  simpa [ofList, keys, empty] using general empty

omit [DecidableEq κ] in
theorem entries_insert_above (t : Table κ α) {k : κ} (v : α)
    (above : ∀ l ∈ t.keys, compare l k = .lt) :
    (t.insert k v).entries = t.entries ++ [(k, v)] := by
  have put_above : ∀ entries : List (κ × α), (∀ e ∈ entries, compare e.1 k = .lt) →
      put k v entries = entries ++ [(k, v)] := by
    intro entries above
    induction entries with
    | nil => rfl
    | cons head rest ih =>
        have below := above head (List.mem_cons_self ..)
        have here : compare k head.1 = .gt := Std.OrientedCmp.gt_of_lt below
        rw [put, here]
        simp [ih fun e present => above e (List.mem_cons_of_mem _ present)]
  exact put_above t.entries fun e present => above e.1 (List.mem_map_of_mem present)

omit [DecidableEq κ] in
theorem entries_foldl_insert (entries : List (κ × α)) (t : Table κ α)
    (ascending : Ascending (t.entries ++ entries)) :
    (entries.foldl (fun t e => t.insert e.1 e.2) t).entries = t.entries ++ entries := by
  induction entries generalizing t with
  | nil => simp
  | cons e rest ih =>
      have below := (List.pairwise_append.1 ascending).2.2
      have added : (t.insert e.1 e.2).entries = t.entries ++ [e] :=
        entries_insert_above t e.2 fun l listed => by
          obtain ⟨former, present, rfl⟩ := List.mem_map.1 listed
          exact below former present e (List.mem_cons_self ..)
      rw [List.foldl_cons, ih _ (by simpa [added] using ascending), added]
      simp

omit [DecidableEq κ] in
theorem ofList_entries (t : Table κ α) : ofList t.entries = t := by
  have same := entries_foldl_insert t.entries empty t.ascending
  exact ext_get? fun k => congrArg (find k) same

end Change

section Enumerate

variable {α : Type}

theorem get?_enumerate (items : List α) (place : Nat) :
    (enumerate items).get? place = items[place]? := by
  apply Option.ext
  intro item
  rw [get?_eq_some_iff, enumerate]
  simp only [List.mem_map, Prod.exists, List.mem_zipIdx_iff_getElem?, Prod.swap_prod_mk,
    Prod.mk.injEq]
  constructor
  · rintro ⟨_, _, found, rfl, rfl⟩
    exact found
  · intro found
    exact ⟨item, place, found, rfl, rfl⟩

theorem values_enumerate (items : List α) : (enumerate items).values = items := by
  rw [values, enumerate, List.map_map]
  exact List.zipIdx_map_fst 0 items

theorem lt_of_mem_keys_enumerate {items : List α} {place : Nat}
    (listed : place ∈ (enumerate items).keys) : place < items.length := by
  obtain ⟨item, found⟩ := (mem_keys_iff _ _).1 listed
  rw [get?_enumerate] at found
  exact (List.getElem?_eq_some_iff.1 found).1

theorem insert_enumerate {items : List α} {place : Nat} (within : place < items.length)
    (item : α) : (enumerate items).insert place item = enumerate (items.set place item) := by
  apply ext_get?
  intro other
  rw [get?_insert, get?_enumerate, get?_enumerate, List.getElem?_set]
  by_cases here : other = place
  · simp [here, within]
  · simp [here, Ne.symm here]

end Enumerate

end Table

end LineLedger
