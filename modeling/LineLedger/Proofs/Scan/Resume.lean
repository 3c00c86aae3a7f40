import LineLedger.Proofs.Scan
import LineLedger.Python.Parse

set_option autoImplicit false

namespace LineLedger

namespace Text

def IsWhole (text : String) : Prop := text = "" ∨ endsLine text.toList = true

theorem IsWhole.splitLines_append {first : String} (whole : IsWhole first) (second : String) :
    splitLines (first ++ second).toList = splitLines first.toList ++ splitLines second.toList := by
  rw [String.toList_append]
  rcases whole with rfl | ended
  · rfl
  · exact Text.splitLines_append ended _

theorem IsWhole.numberedLines_append {first : String} (whole : IsWhole first) (second : String) :
    numberedLines (first ++ second).toList = numberedLines first.toList ++
      (numberedLines second.toList).map fun line => (line.1 + lineCount first, line.2) := by
  have count : ((splitLines first.toList).map chomp).length = lineCount first := by
    rw [lineCount, lines, List.length_map, List.length_map]
  rw [numberedLines, whole.splitLines_append, List.map_append, List.zipIdx_append, count,
    List.map_append, Nat.add_comm, ← List.map_snd_add_zipIdx_eq_zipIdx, List.map_map]
  rw [numberedLines, numberedLines, List.map_map]
  rfl

end Text

def Mark.below (count : Nat) (m : Mark) : Mark := { m with line := m.line + count }

def Record.below (name : String) (count : Nat) (r : Record) : Record :=
  { r with line := r.line + count, location := Record.locate name (r.line + count) }

theorem Record.below_below (name : String) (first second : Nat) (r : Record) :
    (r.below name first).below name second = r.below name (first + second) := by
  simp only [below, Nat.add_assoc]

namespace Scanner

variable {σ : Type} (scanner : Scanner σ)

def resume (state : σ) (source : String) : List Mark × σ :=
  scanner.run state (Text.numberedLines source.toList)

-- The numbers of the lines pass through a run to the marks.
theorem run_moved (state : σ) (count : Nat) (numbered : List (Nat × List Char)) :
    scanner.run state (numbered.map fun line => (line.1 + count, line.2)) =
      ((scanner.run state numbered).1.map (Mark.below count), (scanner.run state numbered).2) := by
  induction numbered generalizing state with
  | nil => rfl
  | cons line rest ih =>
    have later := ih (scanner.step state line.2).2
    simp only [List.map_cons, run, later, List.map_append, List.map_map]
    rfl

theorem resume_append (state : σ) {first : String} (whole : Text.IsWhole first) (second : String) :
    let reached := (scanner.resume state first).2
    scanner.resume state (first ++ second) =
      ((scanner.resume state first).1 ++
        (scanner.resume reached second).1.map (Mark.below (Text.lineCount first)),
        (scanner.resume reached second).2) := by
  intro reached
  rw [resume, whole.numberedLines_append, run_append]
  simp only [run_moved]
  rfl

theorem line_of_mem_resume {state : σ} {source : String} {m : Mark}
    (member : m ∈ (scanner.resume state source).1) :
    0 < m.line ∧ m.line ≤ Text.lineCount source := by
  rw [resume, scanner.marks_run] at member
  have listed := List.mem_map_of_mem (f := Prod.fst) (Mark.mem_onLines member)
  exact (Language.mem_numbers source m.line).1 listed

end Scanner

namespace Language

def scanner? : Language → Option ((σ : Type) × Scanner σ)
  | .python => none
  | .lua => some ⟨Lua.State, Lua.scanner⟩
  | .c => some ⟨Braces.State, Braces.scanner .c⟩
  | .cpp => some ⟨Braces.State, Braces.scanner .cpp⟩
  | .pascal => some ⟨Pascal.State, Pascal.scanner⟩
  | .generic => some ⟨Unit, Plain.scanner⟩

section Records

variable (language : Language) (name : String) (extension : Option String) {σ : Type}
  (scanner : Scanner σ) (state : σ)

def recordsBelow (count : Nat) (source : String) : List Record :=
  ((scanner.resume state source).1.map
    (Mark.toRecord name (language.shownExtension extension))).map (Record.below name count)

variable {language name extension scanner state}

theorem recordsBelow_append (count : Nat) {first : String} (whole : Text.IsWhole first)
    (second : String) :
    language.recordsBelow name extension scanner state count (first ++ second) =
      language.recordsBelow name extension scanner state count first ++
        language.recordsBelow name extension scanner (scanner.resume state first).2
          (count + Text.lineCount first) second := by
  have moved (m : Mark) :
      (Mark.toRecord name (language.shownExtension extension)
        (m.below (Text.lineCount first))).below name count =
      (Mark.toRecord name (language.shownExtension extension) m).below name
        (count + Text.lineCount first) := by
    rw [Nat.add_comm, ← Record.below_below]
    rfl
  simp only [recordsBelow, scanner.resume_append state whole, List.map_append, List.map_map]
  exact congrArg _ (List.map_congr_left fun m _ => moved m)

theorem recordsBelow_add (first second : Nat) (source : String) :
    language.recordsBelow name extension scanner state (first + second) source =
      (language.recordsBelow name extension scanner state first source).map
        (Record.below name second) := by
  simp only [recordsBelow, List.map_map]
  exact List.map_congr_left fun m _ => (Record.below_below name first second _).symm

theorem line_of_mem_recordsBelow {count : Nat} {source : String} {r : Record}
    (member : r ∈ language.recordsBelow name extension scanner state count source) :
    count < r.line ∧ r.line ≤ count + Text.lineCount source := by
  obtain ⟨_, moved, rfl⟩ := List.mem_map.1 member
  obtain ⟨m, marked, rfl⟩ := List.mem_map.1 moved
  have within := scanner.line_of_mem_resume marked
  change count < m.line + count ∧ m.line + count ≤ count + Text.lineCount source
  omega

end Records

section Classify

variable [Python.Grammar] (name : String) (extension : Option String)

theorem exists_scanner {language : Language}
    (lineByLine : language ∈ [Language.c, .cpp, .pascal, .lua, .generic]) :
    ∃ (σ : Type) (scanner : Scanner σ), language.scanner? = some ⟨σ, scanner⟩ ∧
      ∀ source, language.classify name extension source =
        language.recordsBelow name extension scanner scanner.start 0 source := by
  have unmoved (records : List Record)
      (located : ∀ r ∈ records, r.location = Record.locate name r.line) :
      records = records.map (Record.below name 0) := by
    have same : records.map (Record.below name 0) = records.map id :=
      List.map_congr_left fun r member => by
        simp only [Record.below, Nat.add_zero, ← located r member, id]
    rw [same, List.map_id]
  cases language with
  | python => simp at lineByLine
  | lua | c | cpp | pascal | generic =>
    refine ⟨_, _, rfl, fun source => unmoved _ fun r member => ?_⟩
    obtain ⟨m, -, rfl⟩ := List.mem_map.1 member
    rfl

theorem classify_append {first : String} (whole : first = "" ∨ Text.endsLine first.toList = true)
    (second : String) :
    ∀ language ∈ [Language.c, .cpp, .pascal, .lua, .generic],
      ∃ (σ : Type) (scanner : Scanner σ), language.scanner? = some ⟨σ, scanner⟩ ∧
        (∀ source, language.classify name extension source =
          language.recordsBelow name extension scanner scanner.start 0 source) ∧
        let reached := (scanner.resume scanner.start first).2
        let later := language.recordsBelow name extension scanner reached (Text.lineCount first) second
        language.classify name extension (first ++ second) =
          language.classify name extension first ++ later ∧
        (∀ r ∈ language.classify name extension first, r.line ≤ Text.lineCount first) ∧
        ∀ r ∈ later, Text.lineCount first < r.line := by
  intro language lineByLine
  obtain ⟨σ, scanner, known, classified⟩ := exists_scanner name extension lineByLine
  refine ⟨σ, scanner, known, classified, ?_, ?_, ?_⟩
  · rw [classified, classified, recordsBelow_append 0 whole, Nat.zero_add]
  · intro r member
    rw [classified] at member
    have within := line_of_mem_recordsBelow member
    omega
  · exact fun r member => (line_of_mem_recordsBelow member).1

end Classify

-- The cut goes through a block, an assignment and a comment.
def upperPart : String := "begin\nx := (* 1\n"

def lowerPart : String := "; 2 *)\n;\nend."

theorem classify_append_parts :
    Text.endsLine upperPart.toList = true ∧
    Language.pascal ∈ [Language.c, .cpp, .pascal, .lua, .generic] ∧
    Language.pascal.classify "p.pas" none (upperPart ++ lowerPart) =
      Language.pascal.classify "p.pas" none upperPart ++
        [⟨"p.pas:3", 3, none, some "multiline_assignment(1)", "; 2 *)"⟩,
          ⟨"p.pas:4", 4, none, some "multiline_assignment_end(1)", ";"⟩,
          ⟨"p.pas:5", 5, none, some "block_end(0)", "end."⟩] := by
  have ended : Text.endsLine upperPart.toList = true := by decide +kernel
  have lineByLine : Language.pascal ∈ [Language.c, .cpp, .pascal, .lua, .generic] := by decide
  obtain ⟨_, _, ⟨⟩, -, split, -⟩ :=
    classify_append "p.pas" none (.inr ended) lowerPart _ lineByLine
  refine ⟨ended, lineByLine, split.trans (congrArg _ ?_)⟩
  decide +kernel

end Language

end LineLedger
