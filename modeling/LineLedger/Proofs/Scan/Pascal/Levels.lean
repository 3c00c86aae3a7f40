import LineLedger.Proofs.Scan.Pascal.Hidden
import LineLedger.Proofs.Scan.Roles
import LineLedger.Proofs.Text.Lowercase

set_option autoImplicit false

namespace LineLedger.Pascal

def blockRole? (word : List Char) : Option Role :=
  match String.ofList (word.map Char.toLower) with
  | "begin" | "record" | "case" | "try" | "repeat" | "asm" => some .blockStart
  | "end" | "until" => some .blockEnd
  | _ => none

def levelAfterWord (level : Nat) (word : List Char) : Nat :=
  match blockRole? word with
  | some role => role.levelAfter level
  | none => level

section Words

theorem contains_lower {words : List String}
    (small : ∀ word ∈ words, ∀ c ∈ word.toList, Text.isPlainSmall c = true) (word : List Char) :
    words.contains (String.ofList (Text.lower word)) =
      words.contains (String.ofList (word.map Char.toLower)) := by
  rw [Bool.eq_iff_iff, List.contains_iff_mem, List.contains_iff_mem]
  constructor
  · intro listed
    have plain := small _ listed
    rw [String.toList_ofList] at plain
    rwa [(Text.lower_eq_iff plain word).1 rfl]
  · intro listed
    have plain := small _ listed
    rw [String.toList_ofList] at plain
    rwa [(Text.lower_eq_iff plain word).2 rfl]

theorem blockRole?_eq (word : List Char) : blockRole? word =
    if openers.contains (String.ofList (Text.lower word)) then some .blockStart
    else if closers.contains (String.ofList (Text.lower word)) then some .blockEnd
    else none := by
  have opens : ∀ word ∈ openers, ∀ c ∈ word.toList, Text.isPlainSmall c = true := by
    simp [openers, Text.isPlainSmall]
  have closes : ∀ word ∈ closers, ∀ c ∈ word.toList, Text.isPlainSmall c = true := by
    simp [closers, Text.isPlainSmall]
  rw [contains_lower opens, contains_lower closes, blockRole?]
  generalize String.ofList (word.map Char.toLower) = word
  split <;> first | rfl | simp_all [openers, closers]

theorem blockRole?_apart {word : List Char} {role : Role} (found : blockRole? word = some role) :
    role.goesOn = false ∧ role.leavesOpen = false := by
  rw [blockRole?_eq] at found
  split_ifs at found <;> cases found <;> exact ⟨rfl, rfl⟩

theorem wordEffect_lower (nesting : Nesting) (word : List Char) :
    (wordEffect nesting (String.ofList (Text.lower word))).2 = blockRole? word := by
  rw [blockRole?_eq, wordEffect]
  split_ifs <;> rfl

theorem built_wordEffect {nesting : Nesting} (built : nesting.Built) (word : String) :
    (wordEffect nesting word).1.Built := by
  rw [wordEffect]
  split_ifs
  · exact built.push word
  · exact built.pop
  · exact built

theorem level_wordEffect {nesting : Nesting} (built : nesting.Built) (word : List Char) :
    (wordEffect nesting (String.ofList (Text.lower word))).1.level =
      levelAfterWord nesting.level word := by
  rw [levelAfterWord, blockRole?_eq, wordEffect]
  split_ifs
  · rfl
  · exact built.level_pop
  · rfl

theorem wordsEffect_lower {nesting : Nesting} (built : nesting.Built) (role : Option Role)
    (words : List (List Char)) :
    let effect := wordsEffect nesting role
      (words.map fun word => String.ofList (Text.lower word))
    effect.1.Built ∧ effect.1.level = words.foldl levelAfterWord nesting.level ∧
      effect.2 = (words.filterMap blockRole?).getLast?.or role := by
  induction words generalizing nesting role with
  | nil => exact ⟨built, rfl, rfl⟩
  | cons word rest ih =>
    have next := ih (built_wordEffect built (String.ofList (Text.lower word)))
      ((blockRole? word).or role)
    rw [level_wordEffect built] at next
    simp only [List.map_cons, wordsEffect, wordEffect_lower]
    refine ⟨next.1, next.2.1, next.2.2.trans ?_⟩
    cases found : blockRole? word with
    | none => simp [found]
    | some first => simp [found, List.getLast?_cons]

theorem levelAfterWord_foldl {words : List (List Char)} (plain : words.filterMap blockRole? = [])
    (level : Nat) : words.foldl levelAfterWord level = level := by
  induction words with
  | nil => rfl
  | cons word rest ih =>
    cases found : blockRole? word with
    | none =>
      have plain : rest.filterMap blockRole? = [] := by simpa [found] using plain
      simpa [levelAfterWord, found] using ih plain
    | some role => simp [found] at plain

variable {nesting after : Nesting} {role : Option Role} {code : List Char}

theorem words_effect (built : nesting.Built)
    (found : wordsEffect nesting none (words code) = (after, role)) :
    after.Built ∧ after.level = (Text.codeWords code).foldl levelAfterWord nesting.level ∧
      role = ((Text.codeWords code).filterMap blockRole?).getLast? := by
  have effect := wordsEffect_lower built none (Text.codeWords code)
  rw [words] at found
  simpa only [found, Option.or_none] using effect

theorem words_effect_none (built : nesting.Built)
    (found : wordsEffect nesting none (words code) = (after, none)) :
    after.Built ∧ after.level = nesting.level ∧
      (Text.codeWords code).filterMap blockRole? = [] := by
  obtain ⟨kept, level, last⟩ := words_effect built found
  have plain : (Text.codeWords code).filterMap blockRole? = [] :=
    List.getLast?_eq_none_iff.1 last.symm
  exact ⟨kept, level.trans (levelAfterWord_foldl plain _), plain⟩

end Words

section Codes

def codeLines : Comments → List (List Char) → List (List Char)
  | _, [] => []
  | comments, line :: rest =>
    let (code, comments) := strip comments false line
    code :: codeLines comments rest

theorem length_codeLines (comments : Comments) (lines : List (List Char)) :
    (codeLines comments lines).length = lines.length := by
  induction lines generalizing comments with
  | nil => rfl
  | cons line rest ih => simp [codeLines, ih]

-- The rules look at the code alone.
theorem classify_comments (state : State) (comments : Comments) (code : List Char) :
    classify { state with comments } code =
      ((classify state code).1, { (classify state code).2 with comments }) := by
  obtain ⟨nesting, own, inAssignment⟩ := state
  simp only [classify]
  rcases wordsEffect nesting none (words code) with ⟨after, found | role⟩
  · split_ifs <;> rfl
  · split_ifs <;> rfl

theorem rolesOf_comments (state : State) (comments : Comments) (codes : List (List Char)) :
    rolesOf classify { state with comments } codes = rolesOf classify state codes := by
  induction codes generalizing state with
  | nil => rfl
  | cons code rest ih => simp only [rolesOf, classify_comments, ih]

theorem rolesOf_step (state : State) (lines : List (List Char)) :
    rolesOf step state lines = rolesOf classify state (codeLines state.comments lines) := by
  induction lines generalizing state with
  | nil => rfl
  | cons line rest ih =>
    simp only [rolesOf, codeLines, step, ih]
    simp only [classify_comments, rolesOf_comments]

end Codes

def spokenWords (lines : List (List Char × LeveledRole)) : List (List Char) :=
  lines.flatMap fun (code, role) => if role.role.goesOn then [] else Text.codeWords code

theorem spokenWords_cons (line : List Char × LeveledRole) (rest : List (List Char × LeveledRole)) :
    spokenWords (line :: rest) = spokenWords [line] ++ spokenWords rest := by
  simp [spokenWords]

structure Follows (before : LeveledRole) (code : List Char) (role : LeveledRole) : Prop extends
    LeveledRole.Continues before code role where
  level : role.level = (spokenWords [(code, role)]).foldl levelAfterWord before.level
  block : role.role.goesOn = false →
    ∀ last ∈ ((Text.codeWords code).filterMap blockRole?).getLast?, role.role = last

def Shown (role : LeveledRole) (state : State) : Prop :=
  role.Shows state.nesting state.inAssignment

section Step

variable {before : LeveledRole} {state : State} (shown : Shown before state)

include shown

theorem follows_of_open (inside : state.inAssignment = true) (code : List Char) :
    Follows before code
      ⟨if ';' ∈ code then .assignmentEnd else .assignmentPart, state.nesting.level⟩ := by
  refine ⟨shown.continues_open inside code _, ?_, ?_⟩
  · split <;> exact shown.level
  · split <;> simp [Role.goesOn]

theorem follows_of_idle (idle : ¬ state.inAssignment = true) {code : List Char}
    {role : LeveledRole} (apart : role.role.goesOn = false)
    (level : role.level = (Text.codeWords code).foldl levelAfterWord state.nesting.level)
    (block : ∀ last ∈ ((Text.codeWords code).filterMap blockRole?).getLast?, role.role = last) :
    Follows before code role := by
  refine ⟨shown.continues_idle idle apart code, ?_, fun _ => block⟩
  simp [spokenWords, apart, level, shown.level]

theorem follows_of_plain (idle : ¬ state.inAssignment = true) {code : List Char} {role : Role}
    (apart : role.goesOn = false) (plain : (Text.codeWords code).filterMap blockRole? = []) :
    Follows before code ⟨role, state.nesting.level⟩ :=
  follows_of_idle shown idle apart (levelAfterWord_foldl plain _).symm (by simp [plain])

theorem classify_follows (code : List Char) :
    let after := classify state code
    Follows before code after.1 ∧ Shown after.1 after.2 := by
  fun_cases classify state code with
  | case1 terminated level inside ends =>
    have semicolon : ';' ∈ code := by simpa [terminated] using ends
    have follows := follows_of_open shown inside code
    rw [if_pos semicolon] at follows
    exact ⟨follows, shown.built, rfl, rfl⟩
  | case2 terminated level inside more =>
    have none : ';' ∉ code := by simpa [terminated] using more
    have follows := follows_of_open shown inside code
    rw [if_neg none] at follows
    exact ⟨follows, shown.built, rfl, inside⟩
  | case3 idle nesting role found =>
    obtain ⟨built, level, last⟩ := words_effect shown.built found
    obtain ⟨word, -, block⟩ := List.mem_filterMap.1 (List.mem_of_getLast? last.symm)
    have apart := blockRole?_apart block
    refine ⟨follows_of_idle shown idle apart.1 level ?_, built, rfl, ?_⟩
    · simp [← last]
    · rw [apart.2, Bool.eq_false_iff.2 idle]
  | case5 _ _ _ idle nesting found =>
    obtain ⟨built, level, plain⟩ := words_effect_none shown.built found
    exact ⟨follows_of_plain shown idle rfl plain, built, level, rfl⟩
  | case4 _ _ _ idle nesting found | case6 _ _ _ idle nesting found
  | case7 _ _ _ idle nesting found =>
    obtain ⟨built, level, plain⟩ := words_effect_none shown.built found
    exact ⟨follows_of_plain shown idle rfl plain, built, level, Bool.eq_false_iff.2 idle⟩

-- What the line before leaves takes in all lines above.
theorem level_rolesOf {codes : List (List Char)} {place : Nat} {role : LeveledRole}
    (here : (rolesOf classify state codes)[place]? = some role) :
    role.level = (spokenWords ((codes.zip (rolesOf classify state codes)).take (place + 1))).foldl
      levelAfterWord before.level := by
  induction codes generalizing before state place with
  | nil => simp [rolesOf] at here
  | cons code rest ih =>
    have next := classify_follows shown code
    have level := next.1.level
    rw [rolesOf, List.zip_cons_cons, List.take_succ_cons, spokenWords_cons, List.foldl_append,
      ← level]
    cases place with
    | zero =>
      obtain rfl : (classify state code).1 = role := by simpa [rolesOf] using here
      rfl
    | succ above => exact ih next.2 here

end Step

def codesOf (source : String) : List (List Char) :=
  codeLines .none ((Text.splitLines source.toList).map Text.chomp)

theorem levels_count_words [Python.Grammar] (name : String) (extension : Option String)
    (source : String) :
    ∃ roles : List LeveledRole,
      Spelled source (Language.pascal.classify name extension source) roles ∧
      (codesOf source).length = (Text.lines source).length ∧
      ∀ (place : Nat) (code : List Char), (codesOf source)[place]? = some code →
        ∃ before role : LeveledRole, (LeveledRole.outset :: roles)[place]? = some before ∧
          roles[place]? = some role ∧
          role.level =
            (spokenWords (((codesOf source).zip roles).take (place + 1))).foldl levelAfterWord 0 ∧
          (role.role.goesOn = true ↔ before.role.leavesOpen = true) ∧
          (role.role.goesOn = true → (role.role = .assignmentEnd ↔ ';' ∈ code)) ∧
          (role.role.goesOn = false →
            ∀ last ∈ ((Text.codeWords code).filterMap blockRole?).getLast?, role.role = last) := by
  have single (state : State) (line : List Char) :
      scanner.step state line = ([some (step state line).1.text], (step state line).2) := rfl
  have spelled := spelled_scan single name extension source
  rw [rolesOf_step] at spelled
  refine ⟨_, spelled, ?_, ?_⟩
  · simp [codesOf, length_codeLines, Text.lines]
  · intro place code found
    have start : Shown .outset .start := LeveledRole.shows_outset
    have kept {before : LeveledRole} {state : State} (code : List Char)
        (shown : Shown before state) := classify_follows shown code
    obtain ⟨before, role, last, here, follows⟩ := rolesOf_adjacent kept start found
    refine ⟨before, role, last, here, level_rolesOf start here, ?_,
      follows.assignmentEnd_iff, follows.block⟩
    rw [follows.goesOn]

-- The `end` that goes on with the assignment closes no block.
def program : String := "BEGIN (* case\n*) x :=\nend 1;\nEnd.\n"

theorem levels_count_words_program :
    ∃ roles : List LeveledRole,
      roles = [⟨.blockStart, 1⟩, ⟨.assignmentStart, 1⟩, ⟨.assignmentEnd, 1⟩, ⟨.blockEnd, 0⟩] ∧
      Spelled program (Language.pascal.classify "p.pas" none program) roles ∧
      (codesOf program)[3]? = some "End. ".toList ∧
      ∃ before role : LeveledRole, (LeveledRole.outset :: roles)[3]? = some before ∧
        roles[3]? = some role ∧
        role.level = (spokenWords (((codesOf program).zip roles).take 4)).foldl levelAfterWord 0 ∧
        role.role = .blockEnd := by
  obtain ⟨roles, spelled, -, follows⟩ := levels_count_words "p.pas" none program
  have tags : (Language.pascal.classify "p.pas" none program).map Record.tag =
      [⟨.blockStart, 1⟩, ⟨.assignmentStart, 1⟩, ⟨.assignmentEnd, 1⟩, ⟨.blockEnd, 0⟩].map
        fun role : LeveledRole => some role.text := by decide +kernel
  have code : (codesOf program)[3]? = some "End. ".toList := by decide +kernel
  have words : ((Text.codeWords "End. ".toList).filterMap blockRole?).getLast? =
      some .blockEnd := by decide +kernel
  have read := spelled.only _ tags
  obtain ⟨before, role, last, here, level, -, -, block⟩ := follows 3 _ code
  refine ⟨roles, read.symm, spelled, code, before, role, last, here, level, ?_⟩
  subst read
  cases here
  exact block rfl _ words

end LineLedger.Pascal
