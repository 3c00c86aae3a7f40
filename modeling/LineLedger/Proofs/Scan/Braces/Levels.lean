import LineLedger.Proofs.Scan.Roles
import LineLedger.Proofs.Text.Word
import LineLedger.Python.Parse

set_option autoImplicit false

namespace LineLedger.Braces

def Dialect.language : Dialect → Language
  | .c => .c
  | .cpp => .cpp

structure Follows (before : LeveledRole) (line : List Char) (role : LeveledRole) : Prop extends
    LeveledRole.Continues before line role where
  level : role.level = role.role.levelAfter before.level

def Shown (role : LeveledRole) (state : State) : Prop :=
  role.Shows state.nesting state.inAssignment

section Step

variable {before : LeveledRole} {state : State} (shown : Shown before state)

include shown

theorem follows_of_open (inside : state.inAssignment = true) (line : List Char) :
    Follows before line
      ⟨if ';' ∈ line then .assignmentEnd else .assignmentPart, state.nesting.level⟩ := by
  refine ⟨shown.continues_open inside line _, ?_⟩
  split <;> exact shown.level

theorem follows_of_idle (idle : ¬ state.inAssignment = true) {line : List Char}
    {role : LeveledRole} (apart : role.role.goesOn = false)
    (level : role.level = role.role.levelAfter state.nesting.level) :
    Follows before line role :=
  ⟨shown.continues_idle idle apart line, by rw [level, shown.level]⟩

theorem classify_follows (dialect : Dialect) (line : List Char) :
    let after := classify dialect state line
    Follows before line after.1 ∧ Shown after.1 after.2 := by
  have built := shown.built
  fun_cases classify dialect state line with
  | case1 terminated level inside ends =>
    have semicolon : ';' ∈ line := by simpa [terminated] using ends
    have follows := follows_of_open shown inside line
    rw [if_pos semicolon] at follows
    exact ⟨follows, built, rfl, rfl⟩
  | case2 terminated level inside more =>
    have none : ';' ∉ line := by simpa [terminated] using more
    have follows := follows_of_open shown inside line
    rw [if_neg none] at follows
    exact ⟨follows, built, rfl, inside⟩
  | case4 _ _ idle =>
    exact ⟨follows_of_idle shown idle rfl rfl, built.push _, rfl, Bool.eq_false_iff.2 idle⟩
  | case5 _ _ idle =>
    exact ⟨follows_of_idle shown idle rfl built.level_pop, built.pop, rfl,
      Bool.eq_false_iff.2 idle⟩
  | case7 _ _ _ idle => exact ⟨follows_of_idle shown idle rfl rfl, built, rfl, rfl⟩
  | case3 _ _ _ idle | case6 _ _ _ idle | case8 _ _ _ idle | case9 _ _ _ idle =>
    exact ⟨follows_of_idle shown idle rfl rfl, built, rfl, Bool.eq_false_iff.2 idle⟩

end Step

theorem levels_follow_roles [Python.Grammar] (dialect : Dialect) (name : String)
    (extension : Option String) (source : String) :
    ∃ roles : List LeveledRole,
      Spelled source (dialect.language.classify name extension source) roles ∧
      ∀ (place : Nat) (line : String), (Text.lines source)[place]? = some line →
        ∃ before role : LeveledRole, (LeveledRole.outset :: roles)[place]? = some before ∧
          roles[place]? = some role ∧
          role.level = role.role.levelAfter before.level ∧
          (role.role.goesOn = true → before.role.leavesOpen = true) ∧
          (before.role.leavesOpen = true →
            role.role = if ';' ∈ line.toList then .assignmentEnd else .assignmentPart) := by
  have records : dialect.language.classify name extension source =
      ((scanner dialect).scan source.toList).map (Mark.toRecord name extension) := by
    cases dialect <;> rfl
  let step (state : State) (line : List Char) := classify dialect state (Text.trim line)
  have single (state : State) (line : List Char) : (scanner dialect).step state line =
      ([some (step state line).1.text], (step state line).2) := rfl
  refine ⟨_, records ▸ spelled_scan single name extension source, ?_⟩
  intro place line found
  rw [Text.lines, List.getElem?_map] at found
  obtain ⟨whole, present, rfl⟩ := Option.map_eq_some_iff.1 found
  have chomped : ((Text.splitLines source.toList).map Text.chomp)[place]? =
      some (Text.chomp whole) := by simp [present]
  have start : Shown .outset .start := LeveledRole.shows_outset
  have kept {before : LeveledRole} {state : State} (line : List Char)
      (shown : Shown before state) := classify_follows shown dialect (Text.trim line)
  obtain ⟨before, role, last, here, follows⟩ := rolesOf_adjacent kept start chomped
  have semicolon : ';' ∈ Text.trim (Text.chomp whole) ↔ ';' ∈ whole := by
    rw [Text.trim_chomp, Text.mem_trim (by decide)]
  refine ⟨before, role, last, here, follows.level, ?_, ?_⟩
  · exact fun goesOn => follows.goesOn.symm.trans goesOn
  · simpa only [semicolon, String.toList_ofList] using follows.ended

-- The brace in the middle of the assignment opens no block, and the one after it closes none.
def table : String := "int x =\n\x7b 1,\n2 \x7d ;\n\x7d\n"

theorem levels_follow_roles_table :
    ∃ roles : List LeveledRole,
      roles = [⟨.assignmentStart, 0⟩, ⟨.assignmentPart, 0⟩, ⟨.assignmentEnd, 0⟩, ⟨.blockEnd, 0⟩] ∧
      Spelled table (Language.c.classify "t.c" none table) roles ∧
      (Text.lines table)[1]? = some "\x7b 1,\n" ∧
      ∃ before role : LeveledRole, (LeveledRole.outset :: roles)[1]? = some before ∧
        roles[1]? = some role ∧ role.level = role.role.levelAfter before.level ∧
        role.role = .assignmentPart := by
  obtain ⟨roles, spelled, follows⟩ := levels_follow_roles .c "t.c" none table
  have tags : (Language.c.classify "t.c" none table).map Record.tag =
      [⟨.assignmentStart, 0⟩, ⟨.assignmentPart, 0⟩, ⟨.assignmentEnd, 0⟩, ⟨.blockEnd, 0⟩].map
        fun role : LeveledRole => some role.text := by decide +kernel
  have line : (Text.lines table)[1]? = some "\x7b 1,\n" := by decide +kernel
  have read := spelled.only _ tags
  obtain ⟨before, role, last, here, level, -, ended⟩ := follows 1 _ line
  refine ⟨roles, read.symm, spelled, line, before, role, last, here, level, ?_⟩
  subst read
  cases last
  exact ended rfl

end LineLedger.Braces
