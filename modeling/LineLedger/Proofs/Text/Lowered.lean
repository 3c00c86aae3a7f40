import LineLedger.Proofs.Text.Lowercase
import LineLedger.Text.Blank

set_option autoImplicit false

namespace LineLedger.Text

section Runs

def landing (run : Nat × Nat × Nat × Int) : Nat × Nat :=
  (Int.toNat (run.1 + run.2.2.2), Int.toNat (run.2.1 + run.2.2.2))

-- What the capitals of the one run become is no capital of the other. Where the two overlap, every
-- second character is a capital and the others are what they become.
def misses (run other : Nat × Nat × Nat × Int) : Bool :=
  let (low, high) := landing run
  Nat.blt high other.1 || Nat.blt other.2.1 low ||
    other.2.2.1 == 2 && (run.2.2.1 == 2 || run.1 == run.2.1) && (low + other.1) % 2 == 1

theorem misses_capitalRuns :
    capitalRuns.all (fun run => capitalRuns.all (misses run)) = true := by
  decide +kernel

theorem ranges_apart : ∀ run ∈ capitalRuns,
    ∀ range ∈ (0x2E, 0x2E) :: (0x130, 0x130) :: blankRanges,
      (run.2.1 < range.1 ∨ range.2 < run.1) ∧
        ((landing run).2 < range.1 ∨ range.2 < (landing run).1) := by
  decide +kernel

theorem landing_nonneg : ∀ run ∈ capitalRuns, 0 ≤ run.1 + run.2.2.2 := by
  decide +kernel

variable {run : Nat × Nat × Nat × Int} {code : Nat}

theorem landing_within (listed : run ∈ capitalRuns) (first : run.1 ≤ code)
    (last : code ≤ run.2.1) :
    (landing run).1 ≤ Int.toNat (code + run.2.2.2) ∧
      Int.toNat (code + run.2.2.2) ≤ (landing run).2 ∧
      Int.toNat (code + run.2.2.2) = (landing run).1 + (code - run.1) := by
  have nonneg := landing_nonneg run listed
  simp only [landing]
  omega

theorem lowerShift_landing (listed : run ∈ capitalRuns) (first : run.1 ≤ code)
    (last : code ≤ run.2.1) (step : (code - run.1) % run.2.2.1 = 0) :
    lowerShift (Int.toNat (code + run.2.2.2)) capitalRuns = 0 := by
  obtain ⟨low, high, place⟩ := landing_within listed first last
  generalize Int.toNat (code + run.2.2.2) = target at low high place
  rcases lowerShift_cases target capitalRuns with unmoved | ⟨other, also, start, stop, stride, found⟩
  · exact unmoved
  · have missed :=
      List.all_eq_true.1 (List.all_eq_true.1 misses_capitalRuns run listed) other also
    simp only [misses, Bool.or_eq_true, Bool.and_eq_true, Nat.blt_eq, beq_iff_eq] at missed
    rcases missed with (before | after) | ⟨⟨second, paired⟩, odd⟩
    · omega
    · omega
    · -- The target is an even way from the other run's start, and from its own, which is odd to it.
      rw [second] at stride
      have even : (code - run.1) % 2 = 0 := by
        rcases paired with pairs | single
        · rwa [pairs] at step
        · omega
      omega

end Runs

section Characters

structure IsSmall (c : Char) : Prop where
  sigma : c ≠ 'Σ'
  dotted : c ≠ 'İ'
  same : lowerChar c = c

structure Lowers (c d : Char) : Prop where
  small : IsSmall d
  blank : isBlank d = isBlank c
  dot : d = '.' ↔ c = '.'

theorem isSmall_of_unmoved {c : Char} (dotted : c.toNat ≠ 0x130)
    (unmoved : lowerShift c.toNat capitalRuns = 0) : IsSmall c where
  sigma := by
    rintro rfl
    exact absurd unmoved (by decide +kernel)
  dotted := by
    rintro rfl
    exact dotted rfl
  same := by simp [lowerChar, unmoved]

theorem isBlank_eq_false {c : Char}
    (apart : ∀ range ∈ blankRanges, c.toNat < range.1 ∨ range.2 < c.toNat) :
    isBlank c = false := by
  rw [isBlank, ← Bool.not_eq_true]
  intro blank
  obtain ⟨range, listed, low, high⟩ := mem_of_inRanges blank
  have := apart range listed
  omega

theorem ne_dot {c : Char} (apart : c.toNat ≠ 0x2E) : c ≠ '.' := by
  rintro rfl
  exact apart rfl

theorem lowers_lowerChar {c : Char} (dotted : c ≠ 'İ') : Lowers c (lowerChar c) := by
  rcases lowerShift_cases c.toNat capitalRuns with
    unmoved | ⟨run, listed, first, last, step, moved⟩
  · have same : lowerChar c = c := by simp [lowerChar, unmoved]
    have apart : c.toNat ≠ 0x130 := fun here => dotted (Char.toNat_inj.1 here)
    rw [same]
    exact ⟨isSmall_of_unmoved apart unmoved, rfl, Iff.rfl⟩
  · obtain ⟨low, high, -⟩ := landing_within listed first last
    have small := lowerShift_landing listed first last step
    have apart := ranges_apart run listed
    rw [List.forall_mem_cons, List.forall_mem_cons] at apart
    obtain ⟨dot, capital, blank⟩ := apart
    have before : isBlank c = false := isBlank_eq_false fun range among => by
      have := (blank range among).1
      omega
    have undotted : c ≠ '.' := ne_dot (by omega)
    rw [lowerChar, moved]
    generalize Int.toNat (c.toNat + run.2.2.2) = target at low high small
    have reached : (Char.ofNat target).toNat = target ∨ Char.ofNat target = '\x00' := by
      by_cases valid : target.isValidChar
      · exact .inl (by rw [Char.toNat_ofNat, if_pos valid])
      · exact .inr (by rw [← Char.toNat_inj, Char.toNat_ofNat, if_neg valid]; rfl)
    rcases reached with same | none
    · refine ⟨isSmall_of_unmoved (by omega) (by rwa [same]), ?_, ?_⟩
      · rw [before]
        exact isBlank_eq_false fun range among => by
          have := (blank range among).2
          omega
      · exact iff_of_false (ne_dot (by omega)) undotted
    · rw [none]
      refine ⟨isSmall_of_unmoved (by decide) (by decide +kernel), ?_,
        iff_of_false (by decide) undotted⟩
      rw [before]
      decide

end Characters

section Texts

theorem lowerFrom_cons (before : List Char) (c : Char) (rest : List Char) :
    ∃ first more, lowerFrom before (c :: rest) = first :: more ++ lowerFrom (c :: before) rest ∧
      ∀ d ∈ first :: more, Lowers c d := by
  rw [lowerFrom]
  by_cases sigma : c = 'Σ'
  · subst sigma
    have final : Lowers 'Σ' 'ς' :=
      ⟨isSmall_of_unmoved (by decide) (by decide +kernel), by decide, by decide⟩
    have inner : Lowers 'Σ' 'σ' :=
      ⟨isSmall_of_unmoved (by decide) (by decide +kernel), by decide, by decide⟩
    rw [if_pos rfl]
    split
    · exact ⟨'ς', [], rfl, by simpa using final⟩
    · exact ⟨'σ', [], rfl, by simpa using inner⟩
  · rw [if_neg sigma]
    by_cases dotted : c = 'İ'
    · subst dotted
      have letter : Lowers 'İ' 'i' :=
        ⟨isSmall_of_unmoved (by decide) (by decide +kernel), by decide, by decide⟩
      have dot : Lowers 'İ' '\u0307' :=
        ⟨isSmall_of_unmoved (by decide) (by decide +kernel), by decide, by decide⟩
      rw [if_pos rfl]
      exact ⟨'i', ['\u0307'], rfl, by simpa using ⟨letter, dot⟩⟩
    · rw [if_neg dotted]
      exact ⟨lowerChar c, [], rfl, by simpa using lowers_lowerChar dotted⟩

theorem isSmall_of_mem_lowerFrom {before text : List Char} {d : Char}
    (member : d ∈ lowerFrom before text) : IsSmall d := by
  induction text generalizing before with
  | nil => cases member
  | cons c rest ih =>
      obtain ⟨first, more, split, lowers⟩ := lowerFrom_cons before c rest
      rw [split, List.mem_append] at member
      exact member.elim (fun here => (lowers d here).small) ih

theorem lowerFrom_of_small {text : List Char} (small : ∀ c ∈ text, IsSmall c)
    (before : List Char) : lowerFrom before text = text := by
  induction text generalizing before with
  | nil => rfl
  | cons c rest ih =>
      obtain ⟨here, later⟩ := List.forall_mem_cons.1 small
      rw [lowerFrom, if_neg here.sigma, if_neg here.dotted, here.same, ih later,
        List.singleton_append]

theorem lower_of_small {text : List Char} (small : ∀ c ∈ text, IsSmall c) : lower text = text :=
  lowerFrom_of_small small []

theorem isSmall_of_mem_lower {text : List Char} {d : Char} (member : d ∈ lower text) :
    IsSmall d := isSmall_of_mem_lowerFrom member

theorem lower_lower (text : List Char) : lower (lower text) = lower text :=
  lower_of_small fun _ member => isSmall_of_mem_lower member

theorem exists_head_lower (c : Char) (rest : List Char) :
    ∃ d more, lower (c :: rest) = d :: more ∧ Lowers c d := by
  obtain ⟨first, more, split, lowers⟩ := lowerFrom_cons [] c rest
  exact ⟨first, more ++ lowerFrom [c] rest, split, lowers first (List.mem_cons_self ..)⟩

theorem exists_last_lower (text : List Char) (c : Char) :
    ∃ before d, lower (text ++ [c]) = before ++ [d] ∧ Lowers c d := by
  suffices general : ∀ left, ∃ before d,
      lowerFrom left (text ++ [c]) = before ++ [d] ∧ Lowers c d from general []
  induction text with
  | nil =>
      intro left
      obtain ⟨first, more, split, lowers⟩ := lowerFrom_cons left c []
      refine ⟨(first :: more).dropLast, (first :: more).getLast (by simp), ?_,
        lowers _ (List.getLast_mem _)⟩
      rw [List.dropLast_concat_getLast]
      simpa [lowerFrom] using split
  | cons head rest ih =>
      intro left
      obtain ⟨first, more, split, -⟩ := lowerFrom_cons left head (rest ++ [c])
      obtain ⟨before, d, later, lowers⟩ := ih (head :: left)
      refine ⟨first :: more ++ before, d, ?_, lowers⟩
      rw [List.cons_append, split, later, List.append_assoc]

end Texts

end LineLedger.Text
