import LineLedger.Text.Lowercase
import Mathlib

set_option autoImplicit false

namespace LineLedger.Text

-- The sign for kelvins is the one other character that becomes a letter of the alphabet.
def isPlainSmall (d : Char) : Bool := d.isLower && d ≠ 'k'

theorem isLower_iff {d : Char} : d.isLower = true ↔ 97 ≤ d.toNat ∧ d.toNat ≤ 122 := by
  simp [Char.isLower, UInt32.le_iff_toNat_le, ← Char.toNat_val]

theorem lowerShift_cases (code : Nat) (runs : List (Nat × Nat × Nat × Int)) :
    lowerShift code runs = 0 ∨ ∃ run ∈ runs, run.1 ≤ code ∧ code ≤ run.2.1 ∧
      (code - run.1) % run.2.2.1 = 0 ∧ lowerShift code runs = run.2.2.2 := by
  induction runs with
  | nil => exact .inl rfl
  | cons run rest ih =>
    obtain ⟨first, last, step, shift⟩ := run
    rw [lowerShift]
    split_ifs with below within
    · exact .inl rfl
    · simp only [Bool.and_eq_true, decide_eq_true_eq] at within
      exact .inr ⟨_, List.mem_cons_self .., Nat.le_of_not_lt below, within.1, within.2, rfl⟩
    · exact ih.imp_right fun ⟨run, listed, found⟩ => ⟨run, List.mem_cons_of_mem _ listed, found⟩

theorem capitalRuns_apart : ∀ run ∈ capitalRuns, run = (0x41, 0x5A, 1, 32) ∨
    122 < run.1 ∧ (run = (0x212A, 0x212A, 1, -8383) ∨ 122 < run.1 + run.2.2.2) := by
  decide +kernel

theorem isUpper_iff {c : Char} : c.isUpper = true ↔ 65 ≤ c.toNat ∧ c.toNat ≤ 90 := by
  simp [Char.isUpper, UInt32.le_iff_toNat_le, ← Char.toNat_val]

theorem lowerChar_of_isUpper {c : Char} (capital : c.isUpper = true) :
    lowerChar c = c.toLower := by
  have within := isUpper_iff.1 capital
  have shift : lowerShift c.toNat capitalRuns = 32 := by
    rw [capitalRuns, lowerShift, if_neg (by omega), if_pos (by simp [within.2, Nat.mod_one])]
  rw [lowerChar, shift, Char.toLower_eq_of_isUpper capital]
  rfl

theorem ofNat_ne {n : Nat} {d : Char} (small : 97 ≤ d.toNat ∧ d.toNat ≤ 122) (other : n ≠ d.toNat) :
    Char.ofNat n ≠ d := by
  rintro rfl
  rw [Char.toNat_ofNat] at small other
  split at small
  · rename_i valid
    exact other (if_pos valid).symm
  · omega

theorem lowerChar_eq_iff {c d : Char} (small : isPlainSmall d = true) :
    lowerChar c = d ↔ c.toLower = d := by
  simp only [isPlainSmall, Bool.and_eq_true, decide_eq_true_eq, isLower_iff] at small
  obtain ⟨letter, other⟩ := small
  by_cases capital : c.isUpper = true
  · rw [lowerChar_of_isUpper capital]
  · rw [Char.toLower_eq_of_not_isUpper capital]
    rcases lowerShift_cases c.toNat capitalRuns with
      unmoved | ⟨run, listed, first, last, -, moved⟩
    · have same : lowerChar c = c := by simp [lowerChar, unmoved]
      rw [same]
    · rcases capitalRuns_apart run listed with rfl | ⟨above, elsewhere⟩
      · exact absurd (isUpper_iff.2 ⟨first, last⟩) capital
      · have target : Int.toNat (c.toNat + run.2.2.2) ≠ d.toNat := by
          rcases elsewhere with rfl | beyond
          · have kelvin : 'k'.toNat ≠ d.toNat := fun same => other (Char.toNat_inj.1 same).symm
            change 107 ≠ d.toNat at kelvin
            dsimp only at first last ⊢
            omega
          · omega
        rw [lowerChar, moved]
        refine iff_of_false (ofNat_ne letter target) ?_
        rintro rfl
        omega

theorem isPlainSmall_toLower {c : Char} (small : isPlainSmall c.toLower = true) :
    c ≠ 'Σ' ∧ c ≠ 'İ' := by
  constructor <;> rintro rfl <;> exact absurd small (by decide)

-- The two letters that need care do not become letters of the alphabet alone.
theorem lowerFrom_cons_iff {d : Char} {tail : List Char}
    (small : ∀ e ∈ d :: tail, isPlainSmall e = true) (before : List Char) (c : Char)
    (rest : List Char) : lowerFrom before (c :: rest) = d :: tail ↔
      c.toLower = d ∧ lowerFrom (c :: before) rest = tail := by
  have ⟨letter, later⟩ := List.forall_mem_cons.1 small
  have cares : c = 'Σ' ∨ c = 'İ' → ¬ c.toLower = d := by
    rintro special rfl
    have plain := isPlainSmall_toLower letter
    exact special.elim plain.1 plain.2
  rw [lowerFrom]
  by_cases sigma : c = 'Σ'
  · refine iff_of_false ?_ fun both => cares (.inl sigma) both.1
    rw [if_pos sigma]
    split <;> rintro ⟨⟩ <;> exact absurd letter (by decide)
  · rw [if_neg sigma]
    by_cases dotted : c = 'İ'
    · refine iff_of_false ?_ fun both => cares (.inr dotted) both.1
      rw [if_pos dotted]
      rintro ⟨⟩
      exact absurd (later _ (List.mem_cons_self ..)) (by decide)
    · rw [if_neg dotted, List.singleton_append, List.cons.injEq, lowerChar_eq_iff letter]

theorem lower_eq_iff {word : List Char} (small : ∀ d ∈ word, isPlainSmall d = true)
    (text : List Char) : lower text = word ↔ text.map Char.toLower = word := by
  suffices general : ∀ before, lowerFrom before text = word ↔ text.map Char.toLower = word from
    general []
  induction text generalizing word with
  | nil => exact fun _ => Iff.rfl
  | cons c rest ih =>
    intro before
    cases word with
    | nil =>
      rw [lowerFrom]
      split_ifs <;> simp
    | cons d tail =>
      have later := (List.forall_mem_cons.1 small).2
      rw [lowerFrom_cons_iff small, List.map_cons, List.cons.injEq, ih later]

end LineLedger.Text
