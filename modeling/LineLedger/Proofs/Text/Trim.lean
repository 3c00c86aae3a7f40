import LineLedger.Text.Lines

set_option autoImplicit false

namespace LineLedger.Text

section Front

variable {test : Char → Bool} {front rest : List Char}

theorem takeWhile_append_of_stops (all : ∀ c ∈ front, test c = true)
    (stops : ∀ c, rest.head? = some c → test c = false) :
    (front ++ rest).takeWhile test = front := by
  rw [List.takeWhile_append_of_pos all]
  cases rest with
  | nil => simp
  | cons c more => simp [stops c rfl]

theorem dropWhile_append_of_stops (all : ∀ c ∈ front, test c = true)
    (stops : ∀ c, rest.head? = some c → test c = false) :
    (front ++ rest).dropWhile test = rest := by
  rw [List.dropWhile_append_of_pos all]
  cases rest with
  | nil => rfl
  | cons c more => simp [stops c rfl]

end Front

section DropEnd

variable {test : Char → Bool}

theorem exists_dropped (test : Char → Bool) (text : List Char) :
    ∃ dropped, text = dropEndWhile test text ++ dropped ∧ ∀ c ∈ dropped, test c = true := by
  induction text with
  | nil => exact ⟨[], rfl, fun c member => nomatch member⟩
  | cons c rest ih =>
      obtain ⟨dropped, split, all⟩ := ih
      rw [dropEndWhile_cons]
      split
      · rename_i ended
        rw [Bool.and_eq_true, List.isEmpty_iff] at ended
        rw [ended.1, List.nil_append] at split
        rw [← split] at all
        exact ⟨c :: rest, rfl, List.forall_mem_cons.2 ⟨ended.2, all⟩⟩
      · exact ⟨dropped, by rw [List.cons_append, ← split], all⟩

theorem last_dropEndWhile {text : List Char} {c : Char}
    (last : (dropEndWhile test text).getLast? = some c) : test c = false := by
  induction text with
  | nil => cases last
  | cons d rest ih =>
      rw [dropEndWhile_cons] at last
      split at last
      · cases last
      · rename_i kept
        cases more : dropEndWhile test rest with
        | nil =>
            rw [more] at last kept
            cases last
            simpa using kept
        | cons e tail =>
            rw [more, List.getLast?_cons_cons] at last
            exact ih (more ▸ last)

theorem dropEndWhile_append {after : List Char} (all : ∀ c ∈ after, test c = true)
    (text : List Char) : dropEndWhile test (text ++ after) = dropEndWhile test text := by
  induction text with
  | nil => exact (dropEndWhile_eq_nil_iff test after).2 all
  | cons c rest ih => rw [List.cons_append, dropEndWhile_cons, ih, ← dropEndWhile_cons]

theorem dropEndWhile_dropEndWhile (test : Char → Bool) (text : List Char) :
    dropEndWhile test (dropEndWhile test text) = dropEndWhile test text := by
  obtain ⟨dropped, split, all⟩ := exists_dropped test text
  conv => rhs; rw [split]
  rw [dropEndWhile_append all]

theorem dropEndWhile_of_last {text : List Char}
    (kept : ∀ c, text.getLast? = some c → test c = false) : dropEndWhile test text = text := by
  obtain ⟨dropped, split, all⟩ := exists_dropped test text
  rcases List.eq_nil_or_concat dropped with rfl | ⟨before, last, rfl⟩
  · rw [List.append_nil] at split
    exact split.symm
  · have ended := all last (by simp)
    rw [kept last (by rw [split]; simp)] at ended
    cases ended

end DropEnd

theorem chomp_terminate (text : List Char) : chomp (terminate text) = chomp text := by
  rw [terminate]
  split
  · rfl
  · exact dropEndWhile_append (List.forall_mem_singleton.2 rfl) text

theorem isBreak_iff (c : Char) : isBreak c = true ↔ c = '\r' ∨ c = '\n' := by
  rw [isBreak, Bool.or_eq_true, decide_eq_true_eq, decide_eq_true_eq, or_comm]

theorem isBlank_of_isBreak {c : Char} (isBreak : Text.isBreak c = true) : isBlank c = true := by
  rw [isBreak_iff] at isBreak
  rcases isBreak with rfl | rfl <;> decide

theorem starts_of_append {c : Char} {rest breaks more : List Char} (visible : isBreak c = false)
    (all : ∀ b ∈ breaks, isBreak b = true) (starts : rest ++ breaks = c :: more) :
    ∃ tail, rest = c :: tail ∧ tail ++ breaks = more := by
  cases rest with
  | nil =>
      have ends := all c (by rw [show breaks = c :: more from starts]; exact List.mem_cons_self ..)
      rw [visible] at ends
      cases ends
  | cons d tail =>
      cases starts
      exact ⟨tail, rfl, rfl⟩

section Trim

theorem trim_append {after : List Char} (blank : ∀ c ∈ after, isBlank c = true)
    (text : List Char) : trim (text ++ after) = trim text := by
  induction text with
  | nil =>
      rw [List.nil_append, trim_eq_nil_of_blank blank]
      rfl
  | cons c rest ih =>
      rw [trim, trim, trimStart, trimStart, List.cons_append] at *
      by_cases here : isBlank c = true
      · rw [List.dropWhile_cons_of_pos here, List.dropWhile_cons_of_pos here]
        exact ih
      · rw [List.dropWhile_cons_of_neg here, List.dropWhile_cons_of_neg here, ← List.cons_append,
          trimEnd, trimEnd, dropEndWhile_append blank]

theorem trim_chomp (text : List Char) : trim (chomp text) = trim text := by
  obtain ⟨dropped, split, all⟩ := exists_dropped isBreak text
  have blank : ∀ c ∈ dropped, isBlank c = true := fun c member => isBlank_of_isBreak (all c member)
  conv => rhs; rw [split]
  exact (trim_append blank (chomp text)).symm

theorem exists_trimmed (text : List Char) : ∃ before after, text = before ++ trim text ++ after ∧
    (∀ c ∈ before, isBlank c = true) ∧ ∀ c ∈ after, isBlank c = true := by
  obtain ⟨after, split, all⟩ := exists_dropped isBlank (trimStart text)
  refine ⟨text.takeWhile isBlank, after, ?_, List.all_eq_true.1 List.all_takeWhile, all⟩
  rw [List.append_assoc, trim, trimEnd, ← split, trimStart, List.takeWhile_append_dropWhile]

end Trim

end LineLedger.Text
