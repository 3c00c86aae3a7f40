import LineLedger.Proofs.Text.Lowered
import LineLedger.Proofs.Text.Trim

set_option autoImplicit false

namespace LineLedger.Text

section Inert

structure IsInert (c : Char) : Prop where
  small : IsSmall c
  uncased : isCased c = false

theorem casedRanges_apart : ∀ range ∈ casedRanges, ∀ other ∈ (0x2E, 0x2E) :: blankRanges,
    range.2 < other.1 ∨ other.2 < range.1 := by
  decide +kernel

theorem dotted_apart : ∀ range ∈ blankRanges, range.2 < 0x130 ∨ 0x130 < range.1 := by decide

theorem isInert_of_blank {c : Char} (blank : isBlank c = true) : IsInert c := by
  obtain ⟨range, listed, low, high⟩ := mem_of_inRanges blank
  constructor
  · have undotted := dotted_apart range listed
    refine isSmall_of_unmoved (by omega) ?_
    rcases lowerShift_cases c.toNat capitalRuns with unmoved | ⟨run, among, first, last, -, -⟩
    · exact unmoved
    · have apart := ranges_apart run among
      rw [List.forall_mem_cons, List.forall_mem_cons] at apart
      have := (apart.2.2 range listed).1
      omega
  · rw [isCased, ← Bool.not_eq_true]
    intro cased
    obtain ⟨letters, among, first, last⟩ := mem_of_inRanges cased
    have := casedRanges_apart letters among range (List.mem_cons_of_mem _ listed)
    omega

theorem isInert_dot : IsInert '.' :=
  ⟨isSmall_of_unmoved (by decide) (by decide +kernel), by decide +kernel⟩

end Inert

section Around

variable {far front back : List Char}

-- The search for a letter ends at what is none.
theorem casedFollows_append (uncased : ∀ c ∈ far, isCased c = false) (text : List Char) :
    casedFollows (text ++ far) = casedFollows text := by
  induction text with
  | nil =>
      rw [List.nil_append, casedFollows]
      split
      · rfl
      · rename_i c rest stopped
        have among : c ∈ far.dropWhile isCaseIgnorable := by simp [stopped]
        exact uncased c ((List.dropWhile_sublist _).subset among)
  | cons c rest ih =>
      by_cases passed : isCaseIgnorable c = true
      · simpa [casedFollows, passed] using ih
      · simp [casedFollows, passed]

theorem lowerFrom_far (uncased : ∀ c ∈ far, isCased c = false) (before text : List Char) :
    lowerFrom (before ++ far) text = lowerFrom before text := by
  induction text generalizing before with
  | nil => rfl
  | cons c rest ih =>
      rw [lowerFrom, lowerFrom, casedFollows_append uncased, ← List.cons_append, ih]

theorem lowerFrom_append (inert : ∀ c ∈ back, IsInert c) (before text : List Char) :
    lowerFrom before (text ++ back) = lowerFrom before text ++ back := by
  induction text generalizing before with
  | nil => exact lowerFrom_of_small (fun c member => (inert c member).small) before
  | cons c rest ih =>
      have uncased : ∀ c ∈ back, isCased c = false := fun c member => (inert c member).uncased
      rw [List.cons_append, lowerFrom, lowerFrom, casedFollows_append uncased, ih,
        List.append_assoc]

theorem lower_append (inert : ∀ c ∈ back, IsInert c) (text : List Char) :
    lower (text ++ back) = lower text ++ back := lowerFrom_append inert [] text

theorem lower_front (inert : ∀ c ∈ front, IsInert c) (text : List Char) :
    lower (front ++ text) = front ++ lower text := by
  have general : ∀ before, lowerFrom before (front ++ text) =
      front ++ lowerFrom (front.reverse ++ before) text := by
    induction front with
    | nil => exact fun before => rfl
    | cons c rest ih =>
        obtain ⟨here, later⟩ := List.forall_mem_cons.1 inert
        intro before
        rw [List.cons_append, lowerFrom, if_neg here.small.sigma, if_neg here.small.dotted,
          here.small.same, ih later]
        simp
  have uncased : ∀ c ∈ front.reverse, isCased c = false := fun c member =>
    (inert c (List.mem_reverse.1 member)).uncased
  rw [lower, general, List.append_nil, ← List.nil_append front.reverse, lowerFrom_far uncased,
    lower]

end Around

section Cut

variable {test : Char → Bool} (inert : ∀ c, test c = true → IsInert c)
  (kept : ∀ c d, Lowers c d → test d = test c)

include inert kept

theorem dropWhile_lower (text : List Char) :
    (lower text).dropWhile test = lower (text.dropWhile test) := by
  have all : ∀ c ∈ text.takeWhile test, test c = true := fun c => List.mem_takeWhile_imp
  conv => lhs; rw [← List.takeWhile_append_dropWhile (p := test) (l := text)]
  rw [lower_front fun c member => inert c (all c member)]
  refine dropWhile_append_of_stops all fun d first => ?_
  have stopped := List.head?_dropWhile_not test text
  cases rest : text.dropWhile test with
  | nil => simp [rest] at first
  | cons c more =>
      obtain ⟨e, tail, split, lowers⟩ := exists_head_lower c more
      rw [rest, split] at first
      rw [rest] at stopped
      cases first
      rw [kept c d lowers]
      exact stopped

theorem dropEndWhile_lower (text : List Char) :
    dropEndWhile test (lower text) = lower (dropEndWhile test text) := by
  obtain ⟨dropped, split, all⟩ := exists_dropped test text
  conv => lhs; rw [split]
  rw [lower_append fun c member => inert c (all c member), dropEndWhile_append all]
  refine dropEndWhile_of_last fun d last => ?_
  rcases List.eq_nil_or_concat (dropEndWhile test text) with empty | ⟨before, c, remains⟩
  · simp [empty] at last
  · rw [List.concat_eq_append] at remains
    obtain ⟨front, e, ends, lowers⟩ := exists_last_lower before c
    have ended : (dropEndWhile test text).getLast? = some c := by rw [remains, List.getLast?_concat]
    rw [remains, ends, List.getLast?_concat] at last
    cases last
    rw [kept c d lowers]
    exact last_dropEndWhile ended

end Cut

theorem trim_lower (text : List Char) : trim (lower text) = lower (trim text) := by
  have kept : ∀ c d, Lowers c d → isBlank d = isBlank c := fun c d lowers => lowers.blank
  have inert : ∀ c, isBlank c = true → IsInert c := fun c => isInert_of_blank
  rw [trim, trimStart, dropWhile_lower inert kept, trimEnd, dropEndWhile_lower inert kept, trim,
    trimStart, trimEnd]

section Letters

theorem lowerChar_eq_dotted_iff (c : Char) : lowerChar c = 'İ' ↔ c = 'İ' := by
  constructor
  · intro same
    by_contra other
    exact (lowers_lowerChar other).small.dotted same
  · rintro rfl
    decide +kernel

theorem lower_eq_of_letters {text other : List Char}
    (same : text.map lowerChar = other.map lowerChar) (plain : 'Σ' ∉ text) (plain' : 'Σ' ∉ other) :
    lower text = lower other := by
  suffices general : ∀ before before', lowerFrom before text = lowerFrom before' other from
    general [] []
  induction text generalizing other with
  | nil =>
      have empty : other = [] := by simpa using same.symm
      intro before before'
      rw [empty, lowerFrom, lowerFrom]
  | cons c rest ih =>
      obtain ⟨d, more, rfl, first, later⟩ := List.map_eq_cons_iff.1 same.symm
      rw [List.mem_cons, not_or] at plain plain'
      intro before before'
      have tails := ih later.symm plain.2 plain'.2 (c :: before) (d :: before')
      have dotted : c = 'İ' ↔ d = 'İ' := by
        rw [← lowerChar_eq_dotted_iff c, ← first, lowerChar_eq_dotted_iff]
      rw [lowerFrom, lowerFrom, if_neg (Ne.symm plain.1), if_neg (Ne.symm plain'.1), tails]
      simp only [dotted, first]

end Letters

end LineLedger.Text
