import LineLedger.Proofs.Scan
import LineLedger.Proofs.Scan.Reader
import LineLedger.Proofs.Text.Word
import LineLedger.Python.Parse

set_option autoImplicit false

namespace LineLedger.Lua

inductive Mode where
  | code
  | comment
  | string (quote : Char)
  | escape (quote : Char)
  | remark
deriving DecidableEq, Repr

def Mode.start (inComment : Bool) : Mode := if inComment then .comment else .code

def Mode.move? : Mode → Char → List Char → Option (Move Mode)
  | .comment, ']', ']' :: _ => some ⟨[], .code, 1⟩
  | .comment, _, _ => some ⟨[], .comment, 0⟩
  | .code, '-', '-' :: '[' :: '[' :: _ => some ⟨[], .comment, 3⟩
  | .code, '-', '-' :: _ => some ⟨[], .remark, 1⟩
  | .code, c, _ => some ⟨[c], if c = '"' ∨ c = '\'' then .string c else .code, 0⟩
  | .string quote, c, _ =>
    if c = '\\' then some ⟨[], .escape quote, 0⟩
    else if c = quote then some ⟨[c], .code, 0⟩
    else some ⟨[], .string quote, 0⟩
  | .escape quote, _, _ => some ⟨[], .string quote, 0⟩
  | .remark, _, _ => some ⟨[], .remark, 0⟩

section Moves

variable {c : Char} {rest : List Char}

theorem move?_inside (inside : ∀ more, c = ']' → rest = ']' :: more → False) :
    Mode.move? .comment c rest = some ⟨[], .comment, 0⟩ := by
  rw [Mode.move?]
  exact inside

theorem move?_dashes (line : ∀ more, rest = '[' :: '[' :: more → False) :
    Mode.move? .code '-' ('-' :: rest) = some ⟨[], .remark, 1⟩ := by
  rw [Mode.move?]
  exact line

theorem move?_code (code : ∀ more, c = '-' → rest = '-' :: more → False) :
    Mode.move? .code c rest =
      some ⟨[c], if c = '"' ∨ c = '\'' then .string c else .code, 0⟩ := by
  rw [Mode.move?]
  · exact fun more first second => code _ first second
  · exact code

end Moves

def automaton : Reader Mode where
  move? := Mode.move?
  carry mode := .start (mode = .comment)

def pass (mode : Mode) (text : List Char) : List Char × Bool :=
  let (code, final) := automaton.read mode text
  (code, final = .comment)

section Pass

variable {mode : Mode} {c : Char} {rest : List Char}

theorem pass_nil (mode : Mode) : pass mode [] = ([], decide (mode = .comment)) := by
  rw [pass, Reader.read_nil]

theorem pass_move {kept : List Char} {next : Mode} {skips : Nat}
    (moves : mode.move? c rest = some ⟨kept, next, skips⟩) :
    pass mode (c :: rest) =
      (kept ++ (pass next (rest.drop skips)).1, (pass next (rest.drop skips)).2) := by
  rw [pass, Reader.read_move moves]
  rfl

theorem pass_comment (text : List Char) :
    pass .comment text =
      match afterComment? text with
      | none => ([], true)
      | some rest => pass .code rest := by
  fun_induction afterComment? text with
  | case1 => exact pass_nil .comment
  | case2 rest =>
    rw [pass_move rfl]
    rfl
  | case3 c rest inside ih =>
    rw [← ih]
    exact pass_move (move?_inside inside)

theorem pass_remark (text : List Char) : pass .remark text = ([], false) := by
  induction text with
  | nil => exact pass_nil .remark
  | cons c rest ih =>
    rw [pass_move rfl]
    exact ih

theorem plain_of_cases (noEnd : c = '\\' → rest = [] → False)
    (noEscape : ∀ d tail, c = '\\' → rest = d :: tail → False) : c ≠ '\\' := by
  intro same
  cases rest with
  | nil => exact noEnd same rfl
  | cons d tail => exact noEscape d tail same rfl

def Mode.within : Option Char → Mode
  | none => .code
  | some quote => .string quote

theorem pass_code (quote : Option Char) (text : List Char) :
    pass (.within quote) text =
      match codeUntilComment quote text with
      | (code, none) => (code, false)
      | (code, some rest) => (code ++ (pass .comment rest).1, (pass .comment rest).2) := by
  fun_induction codeUntilComment quote text with
  | case1 quote => cases quote <;> exact pass_nil _
  | case2 quote =>
    rw [Mode.within, pass_move rfl]
    exact pass_nil (.escape quote)
  | case3 quote c rest ih =>
    rw [← ih, Mode.within, pass_move rfl, List.drop_zero, pass_move rfl]
    rfl
  | case4 quote rest noEnd noEscape code comment found ih =>
    have plain : quote ≠ '\\' := plain_of_cases noEnd noEscape
    have moves : Mode.move? (.string quote) quote rest = some ⟨[quote], .code, 0⟩ := by
      rw [Mode.move?, if_neg plain, if_pos rfl]
    rw [found] at ih
    rw [Mode.within, pass_move moves, List.drop_zero, show pass .code rest = _ from ih]
    cases comment <;> rfl
  | case5 quote c rest noEnd noEscape other ih =>
    have plain : c ≠ '\\' := plain_of_cases noEnd noEscape
    have moves : Mode.move? (.string quote) c rest = some ⟨[], .string quote, 0⟩ := by
      rw [Mode.move?, if_neg plain, if_neg other]
    rw [← ih, Mode.within, pass_move moves]
    rfl
  | case6 rest =>
    rw [Mode.within, pass_move rfl]
    rfl
  | case7 tail line =>
    rw [Mode.within, pass_move (move?_dashes line)]
    exact pass_remark tail
  | case8 c rest noBlock noRemark code comment found ih =>
    have moves := move?_code noRemark
    have next : (if c = '"' ∨ c = '\'' then Mode.string c else .code) =
        .within (if c = '"' || c = '\'' then some c else none) := by
      by_cases quote : c = '"' ∨ c = '\'' <;> simp [quote, Mode.within]
    rw [found] at ih
    rw [next] at moves
    rw [Mode.within, pass_move moves, List.drop_zero, ih]
    cases comment <;> rfl

end Pass

theorem pass_eq_strip :
    (∀ line, pass .code line = stripCode line) ∧
      ∀ line, pass .comment line = stripComment line := by
  refine stripCode.mutual_induct (fun line => pass .code line = stripCode line)
    (fun line => pass .comment line = stripComment line) ?ended ?opened ?inside ?closed
  case ended =>
    intro line code found
    have read := pass_code none line
    rw [found] at read
    rw [stripCode, found]
    exact read
  case opened =>
    intro line code rest found more inComment stripped ih
    have read := pass_code none line
    rw [found] at read
    rw [stripCode, found]
    simp only [stripped]
    simp only [ih, stripped] at read
    exact read
  case inside =>
    intro line found
    have read := pass_comment line
    rw [found] at read
    rw [stripComment, found]
    exact read
  case closed =>
    intro line rest found ih
    have read := pass_comment line
    rw [found] at read
    rw [stripComment, found]
    exact read.trans ih

theorem strip_eq_pass (inComment : Bool) (line : List Char) :
    strip inComment line = pass (.start inComment) line := by
  cases inComment with
  | false => exact (pass_eq_strip.1 line).symm
  | true => exact (pass_eq_strip.2 line).symm

def Mode.allows : Mode → Char → Char → Bool
  | .code, _, _ | .comment, _, _ => false
  | .string quote, c, d => [c, d].all fun e => e ≠ quote && e ≠ '\\' && e ≠ '\n'
  | .escape _, c, d | .remark, c, d => [c, d].all (· ≠ '\n')

-- The other line differs from the line in strings and remarks only.
structure Retouched (mode : Mode) (line other : List Char) : Prop where
  alike : automaton.Alike Mode.allows mode line other
  unopened : ∀ place < line.length, automaton.stateAt? mode line place = some .code →
    ['-', '-', '[', '['] <+: other.drop place → ['-', '-', '[', '['] <+: line.drop place

instance (mode : Mode) (line other : List Char) : Decidable (Retouched mode line other) :=
  decidable_of_iff (_ ∧ _) ⟨fun ⟨alike, unopened⟩ => ⟨alike, unopened⟩,
    fun retouched => ⟨retouched.alike, retouched.unopened⟩⟩

section Retouched

variable {mode : Mode} {c d : Char} {rest tail : List Char} {move : Move Mode}

theorem Retouched.drop (retouched : Retouched mode (c :: rest) (d :: tail))
    (moves : mode.move? c rest = some move) :
    Retouched move.next (rest.drop move.skips) (tail.drop move.skips) where
  alike := retouched.alike.drop moves
  unopened place within comes opens := by
    rw [List.length_drop] at within
    have unopened := retouched.unopened (move.skips + place + 1) (by simp; omega)
    rw [automaton.stateAt?_move moves] at unopened
    simp only [List.drop_succ_cons, ← List.drop_drop] at unopened
    exact unopened comes opens

theorem Retouched.move?_eq (retouched : Retouched mode (c :: rest) (d :: tail)) :
    mode.move? d tail = mode.move? c rest := by
  obtain ⟨_, _, same, here⟩ := retouched.alike.cons
  cases same
  -- The next character shows what kind of move it is. Where the move looks further ahead, the
  -- characters it skips are the same in both lines; where it does not, `unopened` or `starts` rules
  -- out that the other line has the longer mark.
  fun_cases Mode.move? mode c rest with
  | case1 more =>
    have moves : Mode.move? .comment ']' (']' :: more) = some ⟨[], .code, 1⟩ := rfl
    have ahead : tail.take 1 = [']'] := retouched.alike.take_eq moves
    have same : d = ']' := by simpa [Mode.allows] using here
    rw [← List.take_append_drop 1 tail, ahead, same]
    rfl
  | case2 _ _ inside =>
    have same : d = c := by simpa [Mode.allows] using here
    rw [same]
    refine move?_inside fun more first second => ?_
    have later := retouched.drop (move?_inside inside)
    rw [second] at later
    obtain ⟨others, split⟩ := later.alike.starts fun _ => rfl
    exact inside others first split
  | case3 more =>
    have moves : Mode.move? .code '-' ('-' :: '[' :: '[' :: more) = some ⟨[], .comment, 3⟩ := rfl
    have ahead : tail.take 3 = ['-', '[', '['] := retouched.alike.take_eq moves
    have same : d = '-' := by simpa [Mode.allows] using here
    rw [← List.take_append_drop 3 tail, ahead, same]
    rfl
  | case4 more line =>
    have ahead : tail.take 1 = ['-'] := retouched.alike.take_eq (move?_dashes line)
    have split : tail = '-' :: tail.drop 1 := by rw [← List.take_append_drop 1 tail, ahead]; rfl
    have same : d = '-' := by simpa [Mode.allows] using here
    rw [same, split]
    refine move?_dashes fun others opens => ?_
    have unopened := retouched.unopened 0 (Nat.zero_lt_succ _) (Reader.stateAt?_zero ..)
    rw [same, split, opens] at unopened
    obtain ⟨others, split⟩ := unopened ⟨others, rfl⟩
    simp only [List.cons_append, List.drop_zero, List.cons.injEq, true_and] at split
    exact line others split.symm
  | case5 _ _ _ code =>
    have same : d = c := by simpa [Mode.allows] using here
    rw [same]
    refine move?_code fun more first second => ?_
    have later := retouched.drop (move?_code code)
    rw [first, second] at later
    obtain ⟨others, split⟩ := later.alike.starts fun _ => rfl
    exact code others first split
  | case6 =>
    have same : d = '\\' := by simpa [Mode.allows] using here
    rw [same, Mode.move?, if_pos rfl]
  | case7 _ _ plain =>
    have same : d = c := by simpa [Mode.allows] using here
    rw [same, Mode.move?, if_neg plain, if_pos rfl]
  | case8 quote _ _ plain other =>
    have inside : d ≠ '\\' ∧ d ≠ quote := by
      rcases here with same | allowed
      · exact same ▸ ⟨plain, other⟩
      · simp [Mode.allows] at allowed
        exact ⟨allowed.2.1.2, allowed.2.1.1⟩
    rw [Mode.move?, if_neg inside.1, if_neg inside.2]
  | case9 quote => rfl
  | case10 => rfl

theorem follows_retouched : automaton.Follows Retouched where
  ends retouched := retouched.alike.nil
  moves retouched := by
    obtain ⟨d, tail, rfl, _⟩ := retouched.alike.cons
    exact ⟨d, tail, rfl, retouched.move?_eq, fun move moves => retouched.drop moves⟩

theorem strip_retouched {inComment : Bool} {line other : List Char}
    (retouched : Retouched (.start inComment) line other) :
    strip inComment other = strip inComment line := by
  rw [strip_eq_pass, strip_eq_pass, pass, pass, Reader.read_eq_of_like follows_retouched retouched]

end Retouched

section Breaks

theorem ignoresBreaks : automaton.IgnoresBreaks where
  ahead {mode c rest breaks} all := by
    change mode.move? c (rest ++ breaks) = mode.move? c rest
    fun_cases Mode.move? mode c rest with
    | case2 _ _ inside =>
      refine move?_inside fun more first second => ?_
      obtain ⟨tail, split, _⟩ := Text.starts_of_append rfl all second
      exact inside tail first split
    | case4 rest line =>
      refine move?_dashes fun more opens => ?_
      obtain ⟨tail, split, second⟩ := Text.starts_of_append rfl all opens
      obtain ⟨others, split', _⟩ := Text.starts_of_append rfl all second
      exact line others (split' ▸ split)
    | case5 _ _ _ code =>
      refine move?_code fun more first second => ?_
      obtain ⟨tail, split, _⟩ := Text.starts_of_append rfl all second
      exact code tail first split
    | case6 => rw [Mode.move?, if_pos rfl]
    | case7 _ _ plain => rw [Mode.move?, if_neg plain, if_pos rfl]
    | case8 quote _ _ plain other => rw [Mode.move?, if_neg plain, if_neg other]
    | case1 | case3 | case9 | case10 => rfl
  within {mode c rest move} moves := by
    change mode.move? c rest = some move at moves
    revert moves
    fun_cases Mode.move? mode c rest <;> rintro ⟨⟩ <;> simp
  alone {mode c rest} ends := by
    have apart : c ≠ ']' ∧ c ≠ '-' ∧ c ≠ '\\' := by
      refine ⟨?_, ?_, ?_⟩ <;> rintro rfl <;> cases ends
    cases mode with
    | comment =>
      exact ⟨_, _, move?_inside fun _ here _ => apart.1 here, .inl rfl, rfl⟩
    | code =>
      refine ⟨_, _, move?_code fun _ here _ => apart.2.1 here, .inr rfl, ?_⟩
      split <;> rfl
    | string quote =>
      by_cases closes : c = quote
      · exact ⟨_, _, (if_neg apart.2.2).trans (if_pos closes), .inr rfl, rfl⟩
      · exact ⟨_, _, (if_neg apart.2.2).trans (if_neg closes), .inl rfl, rfl⟩
    | escape quote => exact ⟨_, _, rfl, .inl rfl, rfl⟩
    | remark => exact ⟨_, _, rfl, .inl rfl, rfl⟩

theorem statements_append_breaks {after : List Char}
    (ended : ∀ c ∈ after, Text.isBreak c = true) (code : List Char) :
    statements (code ++ after) = statements code := by
  have uncut : ∀ c ∈ after, decide (c = ';') = false := by
    intro c member
    rw [decide_eq_false_iff_not]
    rintro rfl
    exact absurd (ended _ member) (by decide)
  have blank : ∀ c ∈ after, Text.isBlank c = true := fun c member =>
    Text.isBlank_of_isBreak (ended c member)
  obtain ⟨front, last, split, longer⟩ := Text.splitAt_append uncut code
  rw [statements, statements, split, longer, List.map_append, List.map_append, List.map_singleton,
    List.map_singleton, Text.trim_append blank]

theorem start_injective {first second : Bool} (same : Mode.start first = Mode.start second) :
    first = second := by
  cases first <;> cases second <;> first | rfl | cases same

theorem strip_chomp (inComment : Bool) (line : List Char) :
    ∃ after, (∀ c ∈ after, Text.isBreak c = true) ∧
      (strip inComment line).1 = (strip inComment (Text.chomp line)).1 ++ after ∧
      (strip inComment line).2 = (strip inComment (Text.chomp line)).2 := by
  obtain ⟨after, ended, code, carried⟩ :=
    Reader.read_chomp ignoresBreaks (Mode.start inComment) line
  rw [strip_eq_pass, strip_eq_pass]
  exact ⟨after, ended, code, start_injective carried⟩

theorem step_chomp (state : State) (line : List Char) :
    step state (Text.chomp line) = step state line := by
  obtain ⟨after, ended, code, flag⟩ := strip_chomp state.inComment line
  simp only [step, code, flag, statements_append_breaks ended]

end Breaks

theorem drives_retouched :
    automaton.Drives scanner Retouched fun state => .start state.inComment where
  same retouched := by simp only [scanner, step, strip_retouched retouched]
  onward state line := by
    have carried : (scanner.step state line).2.inComment = (strip state.inComment line).2 := rfl
    rw [carried, strip_eq_pass]
    rfl
  chomps state line := by simp only [scanner, step_chomp]

theorem strip_in_one_pass [Python.Grammar] :
    (∀ inComment line, strip inComment line = pass (.start inComment) line) ∧
    ∀ source other : List Char,
      automaton.AlikeLines Retouched .code (Text.splitLines source) (Text.splitLines other) →
      (Language.lua.marks other).map (fun m => (m.line, m.tag)) =
        (Language.lua.marks source).map fun m => (m.line, m.tag) :=
  ⟨strip_eq_pass, fun _ _ retouched => drives_retouched.scan_eq retouched⟩

def noted : String :=
  "function f(a) -- for\n  local s = 'if \\n' --[[ while\n  ]] .. \"end\" return s -- if\nend\r\n"

-- The same but for two strings, a character behind a backslash and two remarks.
def renoted : String :=
  "function f(a) -- [[\x7b\n  local s = 'do \\t' --[[ while\n  ]] .. \"a;b\" return s --']]\nend\r\n"

theorem strip_in_one_pass_noted :
    automaton.AlikeLines Retouched .code (Text.splitLines noted.toList)
      (Text.splitLines renoted.toList) ∧
    (Language.lua.marks renoted.toList).map (fun m => (m.line, m.tag)) =
      [(1, some "f (sl 1)"), (2, some "var (fsl 1)"), (4, some "end function (sl 0)")] := by
  have retouched : automaton.AlikeLines Retouched .code (Text.splitLines noted.toList)
      (Text.splitLines renoted.toList) := by decide +kernel
  have tags : (Language.lua.marks noted.toList).map (fun m => (m.line, m.tag)) =
      [(1, some "f (sl 1)"), (2, some "var (fsl 1)"), (4, some "end function (sl 0)")] := by
    decide +kernel
  exact ⟨retouched, (strip_in_one_pass.2 _ _ retouched).trans tags⟩

end LineLedger.Lua
