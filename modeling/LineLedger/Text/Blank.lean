import LineLedger.Text.Range

set_option autoImplicit false

namespace LineLedger.Text

-- The code points with the property White_Space.
def blankRanges : List (Nat × Nat) := [
  (0x9, 0xD), (0x20, 0x20), (0x85, 0x85), (0xA0, 0xA0), (0x1680, 0x1680), (0x2000, 0x200A),
  (0x2028, 0x2029), (0x202F, 0x202F), (0x205F, 0x205F), (0x3000, 0x3000)]

def isBlank (c : Char) : Bool := inRanges c.toNat blankRanges

def trimStart (text : List Char) : List Char := text.dropWhile isBlank

def dropEndWhile (test : Char → Bool) (text : List Char) : List Char :=
  text.foldr (fun c kept => if kept.isEmpty && test c then [] else c :: kept) []

def trimEnd (text : List Char) : List Char := dropEndWhile isBlank text

def trim (text : List Char) : List Char := trimEnd (trimStart text)

@[simp] theorem dropEndWhile_nil (test : Char → Bool) : dropEndWhile test [] = [] := rfl

theorem dropEndWhile_cons (test : Char → Bool) (c : Char) (rest : List Char) :
    dropEndWhile test (c :: rest) =
      if (dropEndWhile test rest).isEmpty && test c then [] else c :: dropEndWhile test rest := rfl

theorem dropEndWhile_eq_nil_iff (test : Char → Bool) (text : List Char) :
    dropEndWhile test text = [] ↔ ∀ c ∈ text, test c = true := by
  induction text with
  | nil => simp
  | cons c rest ih =>
      rw [dropEndWhile_cons]
      by_cases none : dropEndWhile test rest = []
      · have all := ih.1 none
        by_cases this : test c = true
        · simpa [none, this] using all
        · simp [none, this]
      · have some : ¬ ∀ c ∈ rest, test c = true := fun all => none (ih.2 all)
        have kept : (dropEndWhile test rest).isEmpty = false := by
          cases eq : dropEndWhile test rest with
          | nil => exact absurd eq none
          | cons d tail => rfl
        simp only [kept, Bool.false_and, Bool.false_eq_true, if_false]
        refine ⟨fun empty => absurd empty (List.cons_ne_nil _ _), fun all => ?_⟩
        refine absurd ?_ some
        exact fun d present => all d (List.mem_cons_of_mem _ present)

theorem trimStart_eq_nil_of_blank {text : List Char} (blank : ∀ c ∈ text, isBlank c = true) :
    trimStart text = [] := by
  induction text with
  | nil => rfl
  | cons c rest ih =>
      rw [trimStart, List.dropWhile_cons_of_pos (blank c (List.mem_cons_self ..))]
      exact ih fun d present => blank d (List.mem_cons_of_mem _ present)

theorem trim_eq_nil_of_blank {text : List Char} (blank : ∀ c ∈ text, isBlank c = true) :
    trim text = [] := by
  simp [trim, trimEnd, trimStart_eq_nil_of_blank blank]

end LineLedger.Text
