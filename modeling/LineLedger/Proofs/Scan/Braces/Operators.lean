import LineLedger.Classifier
import LineLedger.Python.Parse
import Mathlib.Data.List.Basic
import Mathlib.Data.List.Infix

set_option autoImplicit false

namespace LineLedger.Braces

def comparisons : List String := ["==", "!=", "<=", ">="]

def compounds : List String := ["+=", "-=", "*=", "/=", "%=", "&=", "|=", "^="]

def shifts : List String := ["<<=", ">>="]

def Ends (operators : List String) (before : List Char) : Prop :=
  ∃ operator ∈ operators, operator.toList <:+ before ++ ['=']

def Starts (after : List Char) : Prop :=
  ∃ operator ∈ comparisons, operator.toList <+: '=' :: after

def Compares (before after : List Char) : Prop :=
  Starts after ∨ Ends comparisons before ∧ ¬ Ends shifts before

inductive Assigns (before after : List Char) : Prop where
  | plain (alone : ¬ Ends (compounds ++ shifts ++ comparisons) before) (apart : ¬ Starts after)
  | compound (ends : Ends (compounds ++ shifts) before) (apart : ¬ Starts after)

section Neighbours

variable {before after : List Char}

theorem starts_iff : Starts after ↔ after.head? = some '=' := by
  cases after <;> simp [Starts, comparisons, eq_comm]

theorem ends_append {first second : List String} :
    Ends (first ++ second) before ↔ Ends first before ∨ Ends second before := by
  simp only [Ends, List.mem_append, or_and_right, exists_or]

theorem pair_suffix_iff (c : Char) : [c, '='] <:+ before ++ ['='] ↔ before.getLast? = some c := by
  rw [List.getLast?_eq_some_iff]
  constructor
  · rintro ⟨front, same⟩
    have same : (front ++ [c]) ++ ['='] = before ++ ['='] := by simpa using same
    exact ⟨front, (List.append_cancel_right same).symm⟩
  · rintro ⟨front, rfl⟩
    exact ⟨front, by simp⟩

theorem ends_comparisons_iff : Ends comparisons before ↔
    before.getLast? = some '=' ∨ before.getLast? = some '!' ∨ before.getLast? = some '<' ∨
      before.getLast? = some '>' := by
  simp [Ends, comparisons, pair_suffix_iff]

theorem not_ends_comparisons (ends : Ends compounds before) : ¬ Ends comparisons before := by
  have last : before.getLast? = some '+' ∨ before.getLast? = some '-' ∨ before.getLast? = some '*' ∨
      before.getLast? = some '/' ∨ before.getLast? = some '%' ∨ before.getLast? = some '&' ∨
      before.getLast? = some '|' ∨ before.getLast? = some '^' := by
    simpa [Ends, compounds, pair_suffix_iff] using ends
  rw [ends_comparisons_iff]
  rcases last with last | last | last | last | last | last | last | last <;> simp [last]

-- The last two characters of a shift assignment are those of a comparison.
theorem ends_comparisons_of_shift (ends : Ends shifts before) : Ends comparisons before := by
  obtain ⟨operator, listed, suffix⟩ := ends
  simp only [shifts, List.mem_cons, List.not_mem_nil, or_false] at listed
  rcases listed with rfl | rfl
  · exact ⟨"<=", by decide, List.IsSuffix.trans (by decide) suffix⟩
  · exact ⟨">=", by decide, List.IsSuffix.trans (by decide) suffix⟩

theorem assigns_iff :
    Assigns before after ↔ ¬ Starts after ∧ (Ends comparisons before → Ends shifts before) := by
  constructor
  · rintro (⟨alone, apart⟩ | ⟨ends, apart⟩)
    · exact ⟨apart, fun compares => absurd (ends_append.2 (.inr compares)) alone⟩
    · refine ⟨apart, fun compares => ?_⟩
      exact (ends_append.1 ends).resolve_left fun compound => not_ends_comparisons compound compares
  · rintro ⟨apart, shifted⟩
    by_cases ends : Ends (compounds ++ shifts) before
    · exact .compound ends apart
    · refine .plain (fun some => ?_) apart
      rcases ends_append.1 some with compound | compares
      · exact ends compound
      · exact ends (ends_append.2 (.inr (shifted compares)))

theorem assigns_iff_not_compares : Assigns before after ↔ ¬ Compares before after := by
  rw [assigns_iff, Compares]
  tauto

end Neighbours

theorem assignsAfter_iff (last : Char) (line : List Char) : assignsAfter last line = true ↔
    ∃ before after, line = before ++ '=' :: after ∧ after.head? ≠ some '=' ∧
      before.getLast?.getD last ∉ ['=', '!', '<', '>'] := by
  induction line generalizing last with
  | nil => simp [assignsAfter]
  | cons c rest ih =>
    rw [assignsAfter, Bool.or_eq_true, ih]
    constructor
    · rintro (here | ⟨before, after, rfl, apart, free⟩)
      · simp only [Bool.and_eq_true, decide_eq_true_eq] at here
        obtain ⟨⟨rfl, apart⟩, free⟩ := here
        exact ⟨[], rest, rfl, apart, by simpa [and_assoc] using free⟩
      · exact ⟨c :: before, after, rfl, apart, by simpa [List.getLast?_cons] using free⟩
    · rintro ⟨before, after, same, apart, free⟩
      cases before with
      | nil =>
        cases same
        exact .inl (by simpa [apart, and_assoc] using free)
      | cons d front =>
        cases same
        exact .inr ⟨front, after, rfl, apart, by simpa [List.getLast?_cons] using free⟩

theorem hasAssignment_iff_neighbours (line : List Char) : hasAssignment line = true ↔
    ∃ before after, line = before ++ '=' :: after ∧ ¬ Starts after ∧ ¬ Ends comparisons before := by
  rw [hasAssignment, assignsAfter_iff]
  refine exists_congr fun before => exists_congr fun after => ?_
  rw [starts_iff, ends_comparisons_iff]
  cases before.getLast? <;> simp

def AssignsIn (line : List Char) : Prop :=
  ∃ before after, line = before ++ '=' :: after ∧ Assigns before after

-- No equals sign of the line assigns but at the end of a shift.
def OnlyShifts (line : List Char) : Prop :=
  ∀ before after, line = before ++ '=' :: after → Assigns before after → Ends shifts before

theorem hasAssignment_eq_true_iff (line : List Char) :
    hasAssignment line = true ↔ AssignsIn line ∧ ¬ OnlyShifts line := by
  have found : hasAssignment line = true ↔ ¬ OnlyShifts line := by
    rw [hasAssignment_iff_neighbours, OnlyShifts]
    simp only [not_forall, exists_prop, assigns_iff]
    refine exists_congr fun before => exists_congr fun after => and_congr_right fun _ => ?_
    constructor
    · rintro ⟨apart, other⟩
      exact ⟨⟨apart, fun compares => absurd compares other⟩, mt ends_comparisons_of_shift other⟩
    · rintro ⟨⟨apart, shifted⟩, other⟩
      exact ⟨apart, mt shifted other⟩
  rw [found]
  constructor
  · intro other
    refine ⟨?_, other⟩
    simp only [OnlyShifts, not_forall] at other
    obtain ⟨before, after, split, assigns, -⟩ := other
    exact ⟨before, after, split, assigns⟩
  · exact And.right

theorem classify_of_onlyShifts {line : List Char} (only : OnlyShifts line) (ends : ';' ∈ line)
    (dialect : Dialect) {state : State} (idle : state.inAssignment = false) :
    classify dialect state line = (⟨.declaration, state.nesting.level⟩, state) := by
  have missed : hasAssignment line = false := by
    rw [← Bool.not_eq_true, hasAssignment_eq_true_iff]
    exact fun found => found.2 only
  simp [classify, idle, ends, missed]

theorem assignments_found (line : List Char) :
    (∀ before after : List Char, Assigns before after ↔ ¬ Compares before after) ∧
    (hasAssignment line = true ↔ AssignsIn line ∧ ¬ OnlyShifts line) ∧
    ∀ (dialect : Dialect) (state : State), OnlyShifts line → ';' ∈ line →
      state.inAssignment = false →
      classify dialect state line = (⟨.declaration, state.nesting.level⟩, state) :=
  ⟨fun _ _ => assigns_iff_not_compares, hasAssignment_eq_true_iff line,
    fun dialect _ only ends idle => classify_of_onlyShifts only ends dialect idle⟩

def shifted : List Char := "x <<= 2;".toList

theorem assignsIn_shifted : AssignsIn shifted :=
  ⟨"x <<".toList, " 2;".toList, by decide, .compound ⟨"<<=", by decide, by decide⟩
    (by simp [starts_iff])⟩

theorem assignments_found_shifted :
    AssignsIn shifted ∧ OnlyShifts shifted ∧ ';' ∈ shifted ∧
    classify .c .start shifted = (⟨.declaration, 0⟩, .start) := by
  have found := assignments_found shifted
  have missed : ¬ hasAssignment shifted = true := by decide
  have only : OnlyShifts shifted := by
    by_contra other
    exact missed (found.2.1.2 ⟨assignsIn_shifted, other⟩)
  exact ⟨assignsIn_shifted, only, by decide, found.2.2 .c .start only (by decide) rfl⟩

theorem assignments_found_missed :
    ¬ (hasAssignment shifted = true ↔ AssignsIn shifted) ∧
    (Language.c.marks shifted).map Mark.tag = [some "declaration(0)"] := by
  refine ⟨fun same => ?_, by decide +kernel⟩
  exact absurd (same.2 assignsIn_shifted) (by decide)

end LineLedger.Braces
