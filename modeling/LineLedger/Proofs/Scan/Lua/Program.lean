import LineLedger.Proofs.Scan
import LineLedger.Proofs.Scan.Lua.Line

set_option autoImplicit false

namespace LineLedger.Lua

inductive Opener where
  | function (name args : List Char)
  | forLoop (range : List Char)
  | whileLoop (test : List Char)
  | repeatLoop (test : List Char)
  | table (name : List Char)
deriving DecidableEq, Repr

namespace Opener

def first : Opener → Line
  | .function name args => .function name args
  | .forLoop range => .forLoop range
  | .whileLoop test => .whileLoop test
  | .repeatLoop _ => .repeatLoop
  | .table name => .table name

def last : Opener → Line
  | .function _ _ | .forLoop _ | .whileLoop _ => .finish
  | .repeatLoop test => .untilTest test
  | .table _ => .tableEnd

def opened : Opener → Role
  | .function _ _ => .function
  | .forLoop _ => .forLoop
  | .whileLoop _ => .whileLoop
  | .repeatLoop _ => .repeatLoop
  | .table _ => .table

def closed : Opener → Role
  | .function _ _ => .closed "function"
  | .forLoop _ => .closed "for"
  | .whileLoop _ => .closed "while"
  | .repeatLoop _ => .untilLoop "repeat"
  | .table _ => .tableEnd

def label : Opener → String
  | .function _ _ => "function"
  | .forLoop _ => "for"
  | .whileLoop _ => "while"
  | .repeatLoop _ => "repeat"
  | .table _ => "table"

theorem effect_first (opener : Opener) (nesting : Nesting) :
    opener.first.effect nesting =
      (some ⟨opener.opened, nesting.level + 1⟩, nesting.push opener.label) := by
  cases opener <;> rfl

theorem effect_last (opener : Opener) (nesting : Nesting) :
    opener.last.effect (nesting.push opener.label) =
      (some ⟨opener.closed, nesting.level⟩, nesting) := by
  cases opener <;> rfl

end Opener

mutual

inductive Program where
  | done
  | plain (text : List Char) (rest : Program)
  | binding (name value : List Char) (rest : Program)
  | block (opener : Opener) (body rest : Program)
  | conditional (test : List Char) (body : Program) (branches : Branches) (rest : Program)

inductive Branches where
  | done
  | elseIf (test : List Char) (body : Program) (more : Branches)
  | otherwise (body : Program)

end

mutual

def Program.lines : Program → List Line
  | .done => []
  | .plain text rest => .plain text :: rest.lines
  | .binding name value rest => .binding name value :: rest.lines
  | .block opener body rest => opener.first :: (body.lines ++ opener.last :: rest.lines)
  | .conditional test body branches rest =>
    .conditional test :: (body.lines ++ (branches.lines ++ .finish :: rest.lines))

def Branches.lines : Branches → List Line
  | .done => []
  | .elseIf test body more => .elseIf test :: (body.lines ++ more.lines)
  | .otherwise body => .otherwise :: body.lines

end

def Branches.lastLabel (first : String) : Branches → String
  | .done => first
  | .elseIf _ _ more => more.lastLabel "elseif"
  | .otherwise _ => "else"

mutual

def Program.tags (depth : Nat) : Program → List (Option Tag)
  | .done => []
  | .plain _ rest => none :: rest.tags depth
  | .binding _ _ rest => some ⟨.variable, depth⟩ :: rest.tags depth
  | .block opener body rest =>
    some ⟨opener.opened, depth + 1⟩ ::
      (body.tags (depth + 1) ++ some ⟨opener.closed, depth⟩ :: rest.tags depth)
  | .conditional _ body branches rest =>
    some ⟨.conditional, depth + 1⟩ ::
      (body.tags (depth + 1) ++ (branches.tags depth ++
        some ⟨.closed (branches.lastLabel "if"), depth⟩ :: rest.tags depth))

def Branches.tags (depth : Nat) : Branches → List (Option Tag)
  | .done => []
  | .elseIf _ body more => some ⟨.elseIf, depth + 1⟩ :: (body.tags (depth + 1) ++ more.tags depth)
  | .otherwise body => some ⟨.otherwise, depth + 1⟩ :: body.tags (depth + 1)

end

def Program.PrintedOn (program : Program) (lines : List (List Char)) : Prop :=
  lines.map Text.trim = program.lines.map fun line => Text.trim line.text

def effects : Nesting → List Line → List (Option Tag) × Nesting
  | nesting, [] => ([], nesting)
  | nesting, line :: rest =>
    let (tag, next) := line.effect nesting
    let (tags, final) := effects next rest
    (tag :: tags, final)

theorem effects_cons {nesting next final : Nesting} {line : Line} {rest : List Line}
    {tag : Option Tag} {tags : List (Option Tag)} (here : line.effect nesting = (tag, next))
    (later : effects next rest = (tags, final)) :
    effects nesting (line :: rest) = (tag :: tags, final) := by
  simp only [effects, here, later]

theorem effects_append {nesting middle final : Nesting} {first second : List Line}
    {tags more : List (Option Tag)} (before : effects nesting first = (tags, middle))
    (after : effects middle second = (more, final)) :
    effects nesting (first ++ second) = (tags ++ more, final) := by
  induction first generalizing nesting tags with
  | nil =>
      cases before
      exact after
  | cons line rest ih =>
      rw [effects] at before
      cases before
      exact effects_cons rfl (ih rfl)

mutual

theorem Program.effects_lines (nesting : Nesting) : (program : Program) →
    effects nesting program.lines = (program.tags nesting.level, nesting)
  | .done => rfl
  | .plain _ rest => effects_cons rfl (rest.effects_lines nesting)
  | .binding _ _ rest => effects_cons rfl (rest.effects_lines nesting)
  | .block opener body rest =>
      effects_cons (opener.effect_first nesting) <|
        effects_append (body.effects_lines (nesting.push opener.label)) <|
          effects_cons (opener.effect_last nesting) (rest.effects_lines nesting)
  | .conditional _ body branches rest =>
      effects_cons rfl <| effects_append (body.effects_lines (nesting.push "if")) <|
        effects_append (branches.effects_lines nesting "if") <|
          effects_cons rfl (rest.effects_lines nesting)

theorem Branches.effects_lines (nesting : Nesting) (label : String) : (branches : Branches) →
    effects (nesting.push label) branches.lines =
      (branches.tags nesting.level, nesting.push (branches.lastLabel label))
  | .done => rfl
  | .elseIf _ body more =>
      effects_cons rfl <| effects_append (body.effects_lines (nesting.push "elseif")) <|
        more.effects_lines nesting "elseif"
  | .otherwise body => effects_cons rfl (body.effects_lines (nesting.push "else"))

end

theorem run_lines {lines : List Line} (inert : ∀ line ∈ lines, line.Inert)
    {numbered : List (Nat × List Char)}
    (printed : (numbered.map Prod.snd).map Text.trim = lines.map fun line => Text.trim line.text)
    {nesting final : Nesting} {tags : List (Option Tag)}
    (read : effects nesting lines = (tags, final)) :
    scanner.run ⟨nesting, false⟩ numbered =
      (Mark.onLines numbered (tags.map fun tag => (tag.map (some ·.text)).toList),
        ⟨final, false⟩) := by
  induction lines generalizing numbered nesting tags with
  | nil =>
      cases read
      cases List.map_eq_nil_iff.1 (List.map_eq_nil_iff.1 printed)
      rfl
  | cons line rest ih =>
      rw [List.map_map] at printed
      obtain ⟨⟨number, physical⟩, more, rfl, here, later⟩ := List.map_eq_cons_iff.1 printed
      rw [← List.map_map] at later
      have ⟨quiet, below⟩ := List.forall_mem_cons.1 inert
      rcases moved : line.effect nesting with ⟨tag, next⟩
      rcases onward : effects next rest with ⟨more, final⟩
      simp only [effects, moved, onward] at read
      cases read
      have step : scanner.step ⟨nesting, false⟩ physical =
          (tag.toList.map fun tag => some tag.text, ⟨next, false⟩) := by
        have step := Line.step_of_trim quiet here nesting
        rw [moved] at step
        exact congrArg (fun result => (result.1.map fun tag => some tag.text, result.2)) step
      simp only [Scanner.run, step, ih below later onward, List.map_cons, Mark.onLines_cons]
      cases tag <;> rfl

-- The numbered lines may stand anywhere in a source, below blocks that are still open.
theorem run_program {program : Program} (inert : ∀ line ∈ program.lines, line.Inert)
    {numbered : List (Nat × List Char)} (printed : program.PrintedOn (numbered.map Prod.snd))
    (nesting : Nesting) :
    scanner.run ⟨nesting, false⟩ numbered =
      (Mark.onLines numbered
        ((program.tags nesting.level).map fun tag => (tag.map (some ·.text)).toList),
        ⟨nesting, false⟩) :=
  run_lines inert printed (program.effects_lines nesting)

def chained : Program :=
  .block (.function "f".toList "a, b".toList)
    (.binding "x".toList "g(a)".toList <|
      .conditional "x > b".toList
        (.block (.table "t".toList) (.plain "x, (b)".toList .done) .done)
        (.elseIf "not x".toList
          (.block (.repeatLoop "done()".toList) (.plain "step()".toList .done) .done)
          (.otherwise (.block (.forLoop "i = 1, b".toList) .done .done))) <|
      .plain "return x".toList .done)
    .done

def chainedSource : String :=
  "function f(a, b)\n  local x = g(a)\n  if x > b then\n    t = \x7b\n      x, (b)\n    \x7d\n" ++
  "  elseif not x then\n    repeat\n      step()\n    until done()\n" ++
  "  else\n    for i = 1, b do\n    end\n  end\n  return x\nend\n"

theorem run_program_chained :
    (∀ line ∈ chained.lines, line.Inert) ∧
    chained.PrintedOn ((Text.numberedLines chainedSource.toList).map Prod.snd) ∧
    ∃ marks, scanner.run ⟨Nesting.empty.push "while", false⟩
        (Text.numberedLines chainedSource.toList) = (marks, ⟨Nesting.empty.push "while", false⟩) ∧
      marks.map (fun mark => (mark.line, mark.tag)) =
      [(1, some "f (sl 2)"), (2, some "var (fsl 2)"), (3, some "if (sl 3)"), (4, some "tb (sl 4)"),
        (6, some "eof tb (sl 3)"), (7, some "elseif (sl 3)"), (8, some "repeat (sl 4)"),
        (10, some "until repeat (sl 3)"), (11, some "else (sl 3)"), (12, some "for (sl 4)"),
        (13, some "end for (sl 3)"), (14, some "end else (sl 2)"),
        (16, some "end function (sl 1)")] := by
  have quiet : ∀ text ∈ chained.lines.flatMap Line.texts, Inert text := by
    simp only [inert_iff]
    decide +kernel
  have inert : ∀ line ∈ chained.lines, line.Inert := fun line member text embedded =>
    quiet text (List.mem_flatMap.2 ⟨line, member, embedded⟩)
  have printed : chained.PrintedOn ((Text.numberedLines chainedSource.toList).map Prod.snd) := by
    -- The characters are read off the quoted texts; evaluation would have to decode their bytes.
    unfold Program.PrintedOn chainedSource
    simp only [String.toList_append]
    rw [String.toList_ofList, String.toList_ofList, String.toList_ofList]
    decide +kernel
  refine ⟨inert, printed, _, run_program inert printed _, ?_⟩
  unfold chainedSource
  simp only [String.toList_append]
  rw [String.toList_ofList, String.toList_ofList, String.toList_ofList]
  decide +kernel

end LineLedger.Lua
