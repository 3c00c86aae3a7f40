import LineLedger.Proofs.Scan.Records
import LineLedger.Proofs.Scan.Roles
import LineLedger.Python.Parse

set_option autoImplicit false

namespace LineLedger.Braces

-- One of the access words, perhaps blanks, and a colon that is not the first of two.
def AccessLine (line : List Char) : Prop :=
  ∃ word ∈ ["public", "protected", "private"], ∃ blanks rest,
    Text.trim line = word.toList ++ (blanks ++ ':' :: rest) ∧
    (∀ c ∈ blanks, Text.isBlank c = true) ∧ rest.head? ≠ some ':'

structure Specifies (c cpp : Record) : Prop where
  access : ∀ level, c.tag = some (LeveledRole.text ⟨.unknown, level⟩) →
    AccessLine c.text.toList → cpp = { c with tag := some (LeveledRole.text ⟨.access, level⟩) }
  other : ¬ ((∃ level, c.tag = some (LeveledRole.text ⟨.unknown, level⟩)) ∧
    AccessLine c.text.toList) → cpp = c

section Access

theorem trimStart_eq_colon_iff {text rest : List Char} : Text.trimStart text = ':' :: rest ↔
    ∃ blanks, text = blanks ++ ':' :: rest ∧ ∀ c ∈ blanks, Text.isBlank c = true := by
  constructor
  · intro trimmed
    have split := List.takeWhile_append_dropWhile (p := Text.isBlank) (l := text)
    rw [← Text.trimStart, trimmed] at split
    exact ⟨_, split.symm, List.all_eq_true.1 List.all_takeWhile⟩
  · rintro ⟨blanks, rfl, blank⟩
    refine Text.dropWhile_append_of_stops blank fun c first => ?_
    obtain rfl : ':' = c := by simpa using first
    decide

theorem singleColon_iff (text : List Char) : (match text with
      | [':'] => true
      | ':' :: c :: _ => decide (c ≠ ':')
      | _ => false) = true ↔ ∃ rest, text = ':' :: rest ∧ rest.head? ≠ some ':' := by
  split
  next => simp
  next => simp
  next single double =>
    constructor
    · simp
    · rintro ⟨rest, rfl, -⟩
      cases rest with
      | nil => exact absurd rfl single
      | cons c more => exact absurd rfl (double c more)

theorem isAccessSpecifier_iff (line : List Char) : isAccessSpecifier line = true ↔
    ∃ word ∈ accessWords, ∃ blanks rest, line = word.toList ++ (blanks ++ ':' :: rest) ∧
      (∀ c ∈ blanks, Text.isBlank c = true) ∧ rest.head? ≠ some ':' := by
  rw [isAccessSpecifier, List.any_eq_true]
  refine exists_congr fun word => and_congr_right fun _ => ?_
  split
  next starts =>
    obtain ⟨tail, rfl⟩ := List.isPrefixOf_iff_prefix.1 starts
    have behind : (word.toList ++ tail).drop word.length = tail := by
      rw [← String.length_toList, List.drop_left]
    rw [behind]
    refine (singleColon_iff (Text.trimStart tail)).trans ?_
    simp only [trimStart_eq_colon_iff, List.append_cancel_left_eq]
    constructor
    · rintro ⟨rest, ⟨blanks, same, blank⟩, single⟩
      exact ⟨blanks, rest, same, blank, single⟩
    · rintro ⟨blanks, rest, same, blank, single⟩
      exact ⟨rest, ⟨blanks, same, blank⟩, single⟩
  next other =>
    simp only [Bool.false_eq_true, false_iff]
    rintro ⟨blanks, rest, rfl, -⟩
    exact other (List.isPrefixOf_iff_prefix.2 (List.prefix_append _ _))

end Access

theorem classify_cpp (state : State) (line : List Char) :
    classify .cpp state line =
      (if (classify .c state line).1.role = .unknown ∧ isAccessSpecifier line = true then
        { (classify .c state line).1 with role := .access } else (classify .c state line).1,
      (classify .c state line).2) := by
  obtain ⟨nesting, inAssignment⟩ := state
  simp only [classify]
  -- Every rule looks at the line through one of these tests.
  generalize line.contains ';' = terminated
  generalize line.contains '\x7b' = opens
  generalize line.contains '\x7d' = closes
  generalize hasAssignment line = assigns
  generalize isAccessSpecifier line = access
  cases inAssignment with
  | true => cases terminated <;> rfl
  | false =>
    cases terminated <;> cases assigns <;> cases opens <;> cases closes <;> cases access <;> rfl

theorem state_cpp (state : State) (line : List Char) :
    (classify .cpp state line).2 = (classify .c state line).2 := by
  rw [classify_cpp]

section Records

variable (name : String) (extension : Option String)

theorem specifies_classify (state : State) (line : Nat × List Char) :
    let role (dialect : Dialect) := (classify dialect state (Text.trim line.2)).1
    Specifies (Mark.toRecord name extension ⟨line.1, some (role .c).text, line.2⟩)
      (Mark.toRecord name extension ⟨line.1, some (role .cpp).text, line.2⟩) := by
  intro role
  have text (tag : Option String) : AccessLine
      (Mark.toRecord name extension ⟨line.1, tag, line.2⟩).text.toList ↔
        isAccessSpecifier (Text.trim line.2) = true := by
    simp only [Mark.toRecord, Record.make, String.toList_ofList, AccessLine, Text.trim_chomp]
    exact (isAccessSpecifier_iff _).symm
  have cpp : role .cpp = if (role .c).role = .unknown ∧ isAccessSpecifier (Text.trim line.2) = true
      then { role .c with role := .access } else role .c :=
    congrArg Prod.fst (classify_cpp state (Text.trim line.2))
  constructor
  case access =>
    intro level tagged access
    have unknown : role .c = ⟨.unknown, level⟩ :=
      LeveledRole.text_injective (Option.some.inj tagged)
    rw [cpp, unknown, if_pos ⟨rfl, (text _).1 access⟩]
    rfl
  case other =>
    intro neither
    rw [cpp, if_neg]
    rintro ⟨unknown, access⟩
    refine neither ⟨⟨(role .c).level, ?_⟩, (text _).2 access⟩
    rw [← unknown]
    rfl

theorem records_of_run (state : State) (numbered : List (Nat × List Char)) :
    List.Forall₂ Specifies
      (((scanner .c).run state numbered).1.map (Mark.toRecord name extension))
      (((scanner .cpp).run state numbered).1.map (Mark.toRecord name extension)) := by
  induction numbered generalizing state with
  | nil => exact .nil
  | cons line rest ih =>
    have cons (dialect : Dialect) : ((scanner dialect).run state (line :: rest)).1 =
        ⟨line.1, some (classify dialect state (Text.trim line.2)).1.text, line.2⟩ ::
          ((scanner dialect).run (classify dialect state (Text.trim line.2)).2 rest).1 := rfl
    rw [cons, cons, state_cpp]
    exact .cons (specifies_classify name extension state line) (ih _)

end Records

theorem records_of_dialects [Python.Grammar] :
    (∀ (name : String) (extension : Option String) (source : String),
      List.Forall₂ Specifies (Language.c.classify name extension source)
        (Language.cpp.classify name extension source)) ∧
    ∀ (state : State) (numbered : List (Nat × List Char)),
      ((scanner .cpp).run state numbered).2 = ((scanner .c).run state numbered).2 := by
  refine ⟨fun name extension source => records_of_run name extension .start _, ?_⟩
  intro state numbered
  induction numbered generalizing state with
  | nil => rfl
  | cons line rest ih =>
    have cons (dialect : Dialect) : ((scanner dialect).run state (line :: rest)).2 =
        ((scanner dialect).run (classify dialect state (Text.trim line.2)).2 rest).2 := rfl
    rw [cons, cons, state_cpp, ih]

-- The second line starts a qualified name.
example : (Language.cpp.classify "a.hpp" none "public :\nprivate::x\n").map Record.tag =
    [some "access(0)", some "unknown(0)"] := by decide +kernel

end LineLedger.Braces
