import LineLedger.Scan.Lua

set_option autoImplicit false

namespace LineLedger.Lua

def openers : List (String × Role) :=
  [("function", .function), ("if", .conditional), ("for", .forLoop), ("while", .whileLoop)]

def ClosesItself (code : List Char) : Prop :=
  "end" ∈ words code ∧ (∃ opener ∈ openers, opener.1 ∈ words code) ∧
    "else" ∉ words code ∧ "elseif" ∉ words code

instance (code : List Char) : Decidable (ClosesItself code) :=
  inferInstanceAs (Decidable (_ ∧ _ ∧ _ ∧ _))

def Unwinds (nesting : Nesting) (code : List Char) : Prop :=
  ∃ opener ∈ openers, classify nesting code = (some ⟨opener.2, nesting.level + 1⟩, nesting)

instance (nesting : Nesting) (code : List Char) : Decidable (Unwinds nesting code) :=
  inferInstanceAs (Decidable (∃ opener ∈ openers, _))

section Rules

variable {code : List Char}

theorem openBlock_closed (nesting : Nesting) (label : String) (role : Role) :
    openBlock nesting label role true = (⟨role, nesting.level + 1⟩, nesting) := rfl

theorem isEmpty_of_mem_words {word : String} (member : word ∈ words code) :
    code.isEmpty = false := by
  cases code with
  | nil => simp [words, Text.codeWords, Text.splitAt] at member
  | cons c rest => rfl

theorem classify_function (closed : "end" ∈ words code) (opened : "function" ∈ words code)
    (nesting : Nesting) :
    classify nesting code = (some ⟨.function, nesting.level + 1⟩, nesting) := by
  simp [classify, isEmpty_of_mem_words closed, closed, opened, openBlock_closed]

theorem classify_conditional (closed : "end" ∈ words code) (other : "function" ∉ words code)
    (opened : "if" ∈ words code) (nesting : Nesting) :
    classify nesting code = (some ⟨.conditional, nesting.level + 1⟩, nesting) := by
  simp [classify, isEmpty_of_mem_words closed, closed, other, opened, openBlock_closed]

-- No rule before the one for a closing keyword looks for a loop.
theorem classify_closing (closed : "end" ∈ words code)
    (others : ∀ keyword ∈ ["function", "if", "elseif", "else"], keyword ∉ words code)
    (nesting : Nesting) :
    classify nesting code =
      (some ⟨.closed nesting.topLabel, nesting.pop.level⟩, nesting.pop) := by
  simp only [List.forall_mem_cons] at others
  simp [classify, isEmpty_of_mem_words closed, closed, others, closeBlock]

end Rules

theorem not_unwinds_of_closing {nesting : Nesting} {code : List Char} {label : String}
    {level : Nat} {after : Nesting}
    (closing : classify nesting code = (some ⟨.closed label, level⟩, after)) :
    ¬ Unwinds nesting code := by
  rintro ⟨opener, listed, same⟩
  rw [closing] at same
  have role : Role.closed label = opener.2 := by
    injection same with tag
    injection tag with tag
    injection tag
  simp only [openers, List.mem_cons, List.not_mem_nil, or_false] at listed
  rcases listed with rfl | rfl | rfl | rfl <;> cases role

theorem closed_on_its_line {code : List Char} (closes : ClosesItself code) (nesting : Nesting) :
    (Unwinds nesting code ↔ "function" ∈ words code ∨ "if" ∈ words code) ∧
    ("function" ∈ words code →
      classify nesting code = (some ⟨.function, nesting.level + 1⟩, nesting)) ∧
    ("function" ∉ words code → "if" ∈ words code →
      classify nesting code = (some ⟨.conditional, nesting.level + 1⟩, nesting)) ∧
    ("function" ∉ words code → "if" ∉ words code →
      classify nesting code =
        (some ⟨.closed nesting.topLabel, nesting.pop.level⟩, nesting.pop)) := by
  obtain ⟨closed, -, noElse, noElseIf⟩ := closes
  have function := fun opened => classify_function closed opened nesting
  have conditional := fun other opened => classify_conditional closed other opened nesting
  have loop : "function" ∉ words code → "if" ∉ words code → classify nesting code =
      (some ⟨.closed nesting.topLabel, nesting.pop.level⟩, nesting.pop) := fun first second =>
    classify_closing closed (by simp [first, second, noElse, noElseIf]) nesting
  refine ⟨⟨fun unwinds => ?_, fun opened => ?_⟩, function, conditional, loop⟩
  · by_cases first : "function" ∈ words code
    · exact .inl first
    · refine .inr (Decidable.byContradiction fun second => ?_)
      exact not_unwinds_of_closing (loop first second) unwinds
  · by_cases first : "function" ∈ words code
    · exact ⟨("function", .function), by simp [openers], function first⟩
    · exact ⟨("if", .conditional), by simp [openers],
        conditional first (opened.resolve_left first)⟩

theorem closed_on_its_line_branch :
    let code := "if x then return function() return y end end".toList
    let nesting := Nesting.empty.push "while"
    ClosesItself code ∧ Unwinds nesting code ∧
    classify nesting code = (some ⟨.function, 2⟩, nesting) := by
  intro code nesting
  have closes : ClosesItself code := by decide +kernel
  have opened : "function" ∈ words code := by decide +kernel
  have settled := closed_on_its_line closes nesting
  exact ⟨closes, settled.1.2 (.inl opened), settled.2.1 opened⟩

-- The loop closes the function around it, and what follows is one level short.
theorem closed_on_its_line_loop :
    let code := "for i = 1, 3 do f(i) end".toList
    let nesting := Nesting.empty.push "function"
    ClosesItself code ∧ ¬ Unwinds nesting code ∧
    classify nesting code = (some ⟨.closed "function", 0⟩, .empty) ∧
    (scanner.scan "function g()\nfor i = 1, 3 do f(i) end\nlocal x = 1\nend".toList).map
      (fun mark => (mark.line, mark.tag)) =
      [(1, some "f (sl 1)"), (2, some "end function (sl 0)"), (3, some "var (fsl 0)"),
        (4, some "end none (sl 0)")] := by
  decide +kernel

end LineLedger.Lua
