import LineLedger.Text.Word
import LineLedger.Proofs.Text.Trim

set_option autoImplicit false

namespace LineLedger.Text

section SplitAt

variable {test : Char → Bool}

theorem splitAt_append_cons (first : List Char) {c : Char} (cut : test c = true)
    (second : List Char) :
    splitAt test (first ++ c :: second) = splitAt test first ++ splitAt test second := by
  induction first with
  | nil => simp [splitAt, cut]
  | cons d rest ih =>
      rw [List.cons_append, splitAt, splitAt, ih]
      split
      · rfl
      · -- The pieces of the rest start with one that takes the character up.
        obtain ⟨piece, pieces, split⟩ := List.exists_cons_of_ne_nil (splitAt_ne_nil test rest)
        rw [split]
        rfl

theorem splitAt_of_forall {text : List Char} (uncut : ∀ c ∈ text, test c = false) :
    splitAt test text = [text] := by
  induction text with
  | nil => rfl
  | cons c rest ih =>
      have ⟨here, later⟩ := List.forall_mem_cons.1 uncut
      rw [splitAt, ih later, here]
      rfl

theorem splitAt_append {after : List Char} (uncut : ∀ c ∈ after, test c = false)
    (text : List Char) : ∃ front last, splitAt test text = front ++ [last] ∧
      splitAt test (text ++ after) = front ++ [last ++ after] := by
  induction text with
  | nil => exact ⟨[], [], rfl, splitAt_of_forall uncut⟩
  | cons c rest ih =>
      obtain ⟨front, last, split, longer⟩ := ih
      rw [List.cons_append, splitAt, splitAt, split, longer]
      by_cases cut : test c = true
      · exact ⟨[] :: front, last, by rw [if_pos cut]; rfl, by rw [if_pos cut]; rfl⟩
      · rw [if_neg cut, if_neg cut]
        cases front with
        | nil => exact ⟨[], c :: last, rfl, rfl⟩
        | cons piece more => exact ⟨(c :: piece) :: more, last, rfl, rfl⟩

end SplitAt

-- No code point is both blank and part of a word.
theorem isCodeChar_of_isBlank {c : Char} (blank : isBlank c = true) : isCodeChar c = false := by
  have apart : ∀ r ∈ blankRanges, ∀ offset ∈ List.range (r.2 + 1 - r.1),
      inRanges (r.1 + offset) letterRanges = false ∧
        inRanges (r.1 + offset) numeralRanges = false ∧ r.1 + offset ≠ '_'.toNat := by
    decide +kernel
  obtain ⟨r, listed, above, below⟩ := mem_of_inRanges blank
  have offset : c.toNat - r.1 ∈ List.range (r.2 + 1 - r.1) := List.mem_range.2 (by omega)
  obtain ⟨noLetter, noNumeral, other⟩ := apart r listed _ offset
  rw [Nat.add_sub_cancel' above] at noLetter noNumeral other
  have connector : ¬ c = '_' := fun same => other (congrArg Char.toNat same)
  simp [isCodeChar, isAlphanumeric, isLetter, isNumeral, noLetter, noNumeral, connector]

theorem codeWords_append_cons (first : List Char) {c : Char} (apart : isCodeChar c = false)
    (second : List Char) :
    codeWords (first ++ c :: second) = codeWords first ++ codeWords second := by
  rw [codeWords, splitAt_append_cons first (by simp [apart]), List.filter_append]
  rfl

theorem codeWords_nil : codeWords [] = [] := rfl

section Cons

variable {c : Char}

theorem codeWords_cons_of_apart (apart : isCodeChar c = false) (text : List Char) :
    codeWords (c :: text) = codeWords text :=
  codeWords_append_cons [] apart text

theorem exists_codeWords_cons (code : isCodeChar c = true) (text : List Char) :
    ∃ word words, codeWords (c :: text) = word :: words := by
  have uncut : (!isCodeChar c) = false := by simp [code]
  obtain ⟨piece, pieces, split⟩ :=
    List.exists_cons_of_ne_nil (splitAt_ne_nil (fun c => !isCodeChar c) text)
  exact ⟨c :: piece, _, by rw [codeWords, splitAt, uncut, split]; rfl⟩

theorem codeWords_cons (code : isCodeChar c = true) (text : List Char) :
    codeWords (c :: text) =
      if text.head?.any isCodeChar then (codeWords text).modifyHead (c :: ·)
      else [c] :: codeWords text := by
  have uncut : (!isCodeChar c) = false := by simp [code]
  cases text with
  | nil => rw [codeWords, splitAt, uncut]; rfl
  | cons d rest =>
      obtain ⟨piece, pieces, split⟩ :=
        List.exists_cons_of_ne_nil (splitAt_ne_nil (fun c => !isCodeChar c) rest)
      rw [codeWords, codeWords, splitAt, splitAt, uncut, split]
      by_cases next : isCodeChar d = true
      · simp [next]
      · simp [next]

end Cons

theorem codeWords_append_blank {after : List Char} (blank : ∀ c ∈ after, isBlank c = true)
    (text : List Char) : codeWords (text ++ after) = codeWords text := by
  induction after generalizing text with
  | nil => rw [List.append_nil]
  | cons c rest ih =>
      have ⟨here, later⟩ := List.forall_mem_cons.1 blank
      rw [codeWords_append_cons text (isCodeChar_of_isBlank here), ← List.nil_append rest,
        ih later, codeWords_nil, List.append_nil]

theorem codeWords_blank_append {before : List Char} (blank : ∀ c ∈ before, isBlank c = true)
    (text : List Char) : codeWords (before ++ text) = codeWords text := by
  induction before with
  | nil => rfl
  | cons c rest ih =>
      have ⟨here, later⟩ := List.forall_mem_cons.1 blank
      have apart := codeWords_append_cons [] (isCodeChar_of_isBlank here) (rest ++ text)
      rw [codeWords_nil, List.nil_append, List.nil_append, ih later] at apart
      exact apart

theorem codeWords_trim (text : List Char) : codeWords (trim text) = codeWords text := by
  obtain ⟨before, after, split, blank, blank'⟩ := exists_trimmed text
  conv => rhs; rw [split]
  rw [codeWords_append_blank blank', codeWords_blank_append blank]

theorem count_trim {c : Char} (visible : isBlank c = false) (text : List Char) :
    (trim text).count c = text.count c := by
  obtain ⟨before, after, split, blank, blank'⟩ := exists_trimmed text
  have absent : ∀ {blanks : List Char}, (∀ d ∈ blanks, isBlank d = true) → blanks.count c = 0 :=
    fun all => List.count_eq_zero.2 fun member =>
      Bool.false_ne_true (visible.symm.trans (all c member))
  conv => rhs; rw [split]
  simp [absent blank, absent blank']

theorem mem_trim {c : Char} (visible : isBlank c = false) (text : List Char) :
    c ∈ trim text ↔ c ∈ text := by
  rw [← List.count_pos_iff, count_trim visible, List.count_pos_iff]

end LineLedger.Text
