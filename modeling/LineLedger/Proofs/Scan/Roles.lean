import LineLedger.Proofs.Nesting
import LineLedger.Proofs.Scan
import LineLedger.Scan.Role
import Mathlib.Data.List.Basic

set_option autoImplicit false

namespace LineLedger

namespace Role

def levelAfter (level : Nat) : Role → Nat
  | .blockStart => level + 1
  | .blockEnd => level - 1
  | _ => level

def leavesOpen : Role → Bool
  | .assignmentStart | .assignmentPart => true
  | _ => false

def goesOn : Role → Bool
  | .assignmentPart | .assignmentEnd => true
  | _ => false

theorem name_injective {a b : Role} (same : a.name = b.name) : a = b := by
  cases a <;> cases b <;> first | rfl | simp [name] at same

theorem paren_not_mem_name (role : Role) : '(' ∉ role.name.toList := by
  cases role <;> decide

end Role

namespace LeveledRole

-- What the role of a line shows of the state after it.
structure Shows (role : LeveledRole) (nesting : Nesting) (inAssignment : Bool) : Prop where
  built : nesting.Built
  level : nesting.level = role.level
  inAssignment : inAssignment = role.role.leavesOpen

def outset : LeveledRole := ⟨.unknown, 0⟩

theorem shows_outset : outset.Shows .empty false := ⟨.empty, rfl, rfl⟩

theorem text_injective {a b : LeveledRole} (same : a.text = b.text) : a = b := by
  have chars (r : LeveledRole) : r.text.toList =
      r.role.name.toList ++ '(' :: (Nat.toDigits 10 r.level ++ [')']) := by
    simp [text, Nat.toList_repr]
  have noParen (n : Nat) : '(' ∉ Nat.toDigits 10 n ++ [')'] := by
    simp only [List.mem_append, List.mem_singleton, Char.reduceEq, or_false]
    intro member
    have digit := Nat.isDigit_of_mem_toDigits (by decide) (by decide) member
    exact absurd digit (by decide)
  have same := congrArg String.toList same
  rw [chars, chars] at same
  obtain ⟨names, -, digits⟩ :=
    (List.append_cons_inj_of_notMem b.role.paren_not_mem_name (noParen b.level)).1 same.symm
  have roles : b.role = a.role := Role.name_injective (String.toList_inj.1 names)
  have levels : b.level = a.level := by
    have read := congrArg (Nat.ofDigitChars 10 · 0) (List.append_cancel_right digits)
    simpa using read
  cases a
  cases b
  simp_all

structure Continues (before : LeveledRole) (text : List Char) (role : LeveledRole) : Prop where
  goesOn : role.role.goesOn = before.role.leavesOpen
  ended : before.role.leavesOpen = true →
    role.role = if ';' ∈ text then .assignmentEnd else .assignmentPart

theorem Continues.assignmentEnd_iff {before role : LeveledRole} {text : List Char}
    (continues : Continues before text role) (goesOn : role.role.goesOn = true) :
    role.role = .assignmentEnd ↔ ';' ∈ text := by
  have opened : before.role.leavesOpen = true := continues.goesOn.symm.trans goesOn
  simp [continues.ended opened]

section Shows

variable {before : LeveledRole} {nesting : Nesting} {inAssignment : Bool}
  (shown : before.Shows nesting inAssignment)

include shown

theorem Shows.continues_open (inside : inAssignment = true) (text : List Char) (level : Nat) :
    Continues before text ⟨if ';' ∈ text then .assignmentEnd else .assignmentPart, level⟩ := by
  have opened : before.role.leavesOpen = true := by rw [← shown.inAssignment, inside]
  constructor
  case goesOn => split <;> simp [Role.goesOn, opened]
  case ended => simp

theorem Shows.continues_idle (idle : ¬ inAssignment = true) {role : LeveledRole}
    (apart : role.role.goesOn = false) (text : List Char) : Continues before text role := by
  have closed : before.role.leavesOpen = false := by simpa [shown.inAssignment] using idle
  constructor
  case goesOn => rw [apart, closed]
  case ended => simp [closed]

end Shows

end LeveledRole

-- The roles that the tags of the records spell, one for each line of the source.
structure Spelled (source : String) (records : List Record) (roles : List LeveledRole) : Prop where
  tags : records.map Record.tag = roles.map fun role => some role.text
  lines : records.map Record.line = List.range' 1 (Text.lines source).length
  only : ∀ others : List LeveledRole,
    (records.map Record.tag = others.map fun role => some role.text) → others = roles

section Roles

variable {σ α : Type} (step : σ → α → LeveledRole × σ)

def rolesOf : σ → List α → List LeveledRole
  | _, [] => []
  | state, line :: rest => (step state line).1 :: rolesOf (step state line).2 rest

theorem length_rolesOf (state : σ) (lines : List α) :
    (rolesOf step state lines).length = lines.length := by
  induction lines generalizing state with
  | nil => rfl
  | cons line rest ih => simp [rolesOf, ih]

variable {step}

-- The invariant says what the role before a line tells about the state in which it is read.
theorem rolesOf_adjacent {Shown : LeveledRole → σ → Prop}
    {Follows : LeveledRole → α → LeveledRole → Prop}
    (follows : ∀ {before state} line, Shown before state →
      Follows before line (step state line).1 ∧ Shown (step state line).1 (step state line).2)
    {before : LeveledRole} {state : σ} (shown : Shown before state) {lines : List α} {place : Nat}
    {line : α} (found : lines[place]? = some line) :
    ∃ last role, (before :: rolesOf step state lines)[place]? = some last ∧
      (rolesOf step state lines)[place]? = some role ∧ Follows last line role := by
  induction lines generalizing before state place with
  | nil => simp at found
  | cons head rest ih =>
    have next := follows head shown
    cases place with
    | zero =>
      obtain rfl : head = line := by simpa using found
      exact ⟨before, _, rfl, rfl, next.1⟩
    | succ below => exact ih next.2 found

end Roles

section Scan

variable {σ : Type} {scanner : Scanner σ} {step : σ → List Char → LeveledRole × σ}

theorem tags_eq_rolesOf (single : ∀ state line,
    scanner.step state line = ([some (step state line).1.text], (step state line).2))
    (state : σ) (lines : List (List Char)) :
    scanner.tags state lines = (rolesOf step state lines).map fun role => [some role.text] := by
  induction lines generalizing state with
  | nil => rfl
  | cons line rest ih => simp [Scanner.tags_cons, rolesOf, single, ih]

theorem tags_onLines {numbered : List (Nat × List Char)} {tags : List (Option String)}
    (length : tags.length = numbered.length) :
    (Mark.onLines numbered (tags.map ([·]))).map Mark.tag = tags := by
  induction numbered generalizing tags with
  | nil => simpa [Mark.onLines] using length
  | cons line rest ih =>
    cases tags with
    | nil => simp at length
    | cons tag more =>
      have later := ih (Nat.succ.inj length)
      simp only [List.map_cons, Mark.onLines_cons, List.map_append, later]
      rfl

theorem spelled_scan (single : ∀ state line,
    scanner.step state line = ([some (step state line).1.text], (step state line).2))
    (name : String) (extension : Option String) (source : String) :
    Spelled source ((scanner.scan source.toList).map (Mark.toRecord name extension))
      (rolesOf step scanner.start ((Text.splitLines source.toList).map Text.chomp)) := by
  let roles := rolesOf step scanner.start ((Text.splitLines source.toList).map Text.chomp)
  have length : (roles.map fun role => some role.text).length =
      (Text.numberedLines source.toList).length := by
    simp [roles, length_rolesOf, Text.numberedLines]
  have marks : scanner.scan source.toList = Mark.onLines (Text.numberedLines source.toList)
      ((roles.map fun role => some role.text).map ([·])) := by
    rw [Scanner.scan, scanner.marks_run, Text.texts_numberedLines, tags_eq_rolesOf single,
      List.map_map]
    rfl
  have tags : ((scanner.scan source.toList).map (Mark.toRecord name extension)).map Record.tag =
      roles.map fun role => some role.text := by
    rw [List.map_map, marks]
    exact tags_onLines length
  constructor
  case tags => exact tags
  case lines =>
    have each : ((roles.map fun role => some role.text).map ([·])).length =
        (Text.numberedLines source.toList).length := by simpa using length
    have lines := Mark.lines_onLines each (by simp)
    rw [← marks, Text.numbers_numberedLines] at lines
    rw [List.map_map, Text.lines, List.length_map]
    exact lines
  case only =>
    intro others same
    have texts : Function.Injective fun role : LeveledRole => some role.text := fun a b same =>
      LeveledRole.text_injective (Option.some.inj same)
    exact (texts.list_map (tags.symm.trans same)).symm

end Scan

end LineLedger
