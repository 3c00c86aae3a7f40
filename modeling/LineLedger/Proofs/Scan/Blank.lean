import LineLedger.Proofs.Scan.Lua.Line
import LineLedger.Proofs.Scan.Pascal.Hidden
import LineLedger.Proofs.Scan.Resume

set_option autoImplicit false

namespace LineLedger

def Scanner.Idles {σ : Type} (scanner : Scanner σ) (count : Nat) : Prop :=
  ∀ (state : σ) (line : List Char), (∀ c ∈ line, Text.isBlank c = true) →
    (scanner.step state line).1.length = count ∧ (scanner.step state line).2 = state

theorem Plain.idles : scanner.Idles 1 := fun _ _ _ => ⟨rfl, rfl⟩

theorem Braces.idles (dialect : Dialect) : (scanner dialect).Idles 1 := by
  intro state line blank
  have trimmed : Text.trim line = [] := Text.trim_eq_nil_of_blank blank
  have idle : (classify dialect state []).2 = state := by
    obtain ⟨nesting, _ | _⟩ := state <;> cases dialect <;> rfl
  exact ⟨rfl, by simp only [scanner, trimmed, idle]⟩

namespace Pascal

-- A blank ends no comment and starts neither a comment nor quoted text.
theorem strip_of_blank (comments : Comments) {line : List Char}
    (blank : ∀ c ∈ line, Text.isBlank c = true) :
    ∃ code, (∀ c ∈ code, Text.isBlank c = true) ∧ strip comments false line = (code, comments) := by
  induction line with
  | nil => exact ⟨[' '], List.forall_mem_singleton.2 (by decide), strip_nil comments false⟩
  | cons c rest ih =>
    have ⟨here, later⟩ := List.forall_mem_cons.1 blank
    obtain ⟨code, blank', stripped⟩ := ih later
    have other {d : Char} (visible : Text.isBlank d = false) : c ≠ d := by
      rintro rfl
      rw [here] at visible
      cases visible
    obtain ⟨brace, paren⟩ := comments
    cases brace with
    | true =>
      have stays : decide (c ≠ '\x7d') = true := decide_eq_true (other (by decide))
      exact ⟨code, blank', by rw [strip, stays, stripped]⟩
    | false =>
      cases paren with
      | true =>
        refine ⟨code, blank', ?_⟩
        rw [strip, stripped]
        exact fun _ star _ => other (by decide) star
      | false =>
        refine ⟨c :: code, List.forall_mem_cons.2 ⟨here, blank'⟩, ?_⟩
        rw [strip, stripped]
        · exact other (by decide)
        · exact other (by decide)
        · exact fun _ paren _ => other (by decide) paren
        · exact fun _ slash _ => other (by decide) slash

theorem idles : scanner.Idles 1 := by
  intro state line blank
  obtain ⟨code, blank', stripped⟩ := strip_of_blank state.comments blank
  have idle : (classify state []).2 = state := by
    obtain ⟨nesting, comments, _ | _⟩ := state <;> rfl
  have same := classify_append_blank blank' state []
  rw [List.nil_append] at same
  refine ⟨rfl, ?_⟩
  simp only [scanner, step, stripped, same, idle]

end Pascal

namespace Lua

theorem afterComment?_of_blank {line : List Char} (blank : ∀ c ∈ line, Text.isBlank c = true) :
    afterComment? line = none := by
  induction line with
  | nil => rfl
  | cons c rest ih =>
    have ⟨here, later⟩ := List.forall_mem_cons.1 blank
    rw [afterComment?]
    · exact ih later
    · rintro tail rfl -
      revert here
      decide

theorem strip_of_blank (inComment : Bool) {line : List Char}
    (blank : ∀ c ∈ line, Text.isBlank c = true) :
    ∃ code, (∀ c ∈ code, Text.isBlank c = true) ∧ strip inComment line = (code, inComment) := by
  cases inComment with
  | true =>
    refine ⟨[], by simp, ?_⟩
    rw [strip, if_pos rfl, stripComment]
    split
    · rfl
    · rename_i found
      rw [afterComment?_of_blank blank] at found
      cases found
  | false =>
    have clear : Clear line := clear_of_code fun c member => code_of_isBlank (blank c member)
    exact ⟨line, blank, stripCode_of_clear clear⟩

theorem idles : scanner.Idles 0 := by
  intro state line blank
  obtain ⟨code, blank', stripped⟩ := strip_of_blank state.inComment blank
  have clear : Clear code := clear_of_code fun c member => code_of_isBlank (blank' c member)
  have trimmed : Text.trim code = [] := Text.trim_eq_nil_of_blank blank'
  have silent : step state line = ([], state) := by
    rw [step, stripped]
    simp only [statements_of_clear clear, trimmed, classifyAll, classify, List.isEmpty_nil, if_true]
    rfl
  simp only [scanner, silent, List.map_nil, List.length_nil, and_self]

end Lua

namespace Text

def blankLine (pad : List Char) : String := String.ofList (pad ++ ['\n'])

section BlankLine

variable {pad : List Char}

theorem isWhole_blankLine (pad : List Char) : IsWhole (blankLine pad) :=
  .inr (by simp [blankLine, endsLine])

theorem lineCount_blankLine (single : '\n' ∉ pad) : lineCount (blankLine pad) = 1 := by
  rw [lineCount, lines, blankLine, String.toList_ofList, splitLines_append_feed single]
  rfl

theorem numberedLines_blankLine (single : '\n' ∉ pad) :
    numberedLines (blankLine pad).toList = [(1, chomp (pad ++ ['\n']))] := by
  rw [numberedLines, blankLine, String.toList_ofList, splitLines_append_feed single]
  rfl

end BlankLine

end Text

theorem Scanner.Idles.resume {σ : Type} {scanner : Scanner σ} {count : Nat}
    (idles : scanner.Idles count) (state : σ) {pad : List Char}
    (blank : ∀ c ∈ pad, Text.isBlank c = true) (single : '\n' ∉ pad) :
    (scanner.resume state (Text.blankLine pad)).1.length = count ∧
      (scanner.resume state (Text.blankLine pad)).2 = state := by
  have blank' : ∀ c ∈ Text.chomp (pad ++ ['\n']), Text.isBlank c = true := by
    obtain ⟨dropped, split, -⟩ := Text.exists_dropped Text.isBreak (pad ++ ['\n'])
    intro c member
    have listed : c ∈ pad ++ ['\n'] := split ▸ List.mem_append_left _ member
    rcases List.mem_append.1 listed with inside | feed
    · exact blank c inside
    · exact List.mem_singleton.1 feed ▸ by decide
  obtain ⟨length, kept⟩ := idles state _ blank'
  rw [Scanner.resume, Text.numberedLines_blankLine single]
  simp [Scanner.run, length, kept]

namespace Language

theorem idles_of_scanner? {language : Language} {σ : Type} {scanner : Scanner σ}
    (known : language.scanner? = some ⟨σ, scanner⟩) :
    scanner.Idles (if language = .lua then 0 else 1) := by
  cases language with
  | python => cases known
  | lua => cases known; exact Lua.idles
  | c => cases known; exact Braces.idles .c
  | cpp => cases known; exact Braces.idles .cpp
  | pascal => cases known; exact Pascal.idles
  | generic => cases known; exact Plain.idles

theorem blank_line_neutral [Python.Grammar] (name : String) (extension : Option String)
    {first : String} (whole : first = "" ∨ Text.endsLine first.toList = true) (second : String) {pad : List Char}
    (blank : ∀ c ∈ pad, Text.isBlank c = true) (single : '\n' ∉ pad) :
    ∀ language ∈ [Language.c, .cpp, .pascal, .lua, .generic], ∃ upper own lower : List Record,
      language.classify name extension (first ++ second) = upper ++ lower ∧
      language.classify name extension (first ++ Text.blankLine pad ++ second) =
        upper ++ own ++ lower.map (Record.below name 1) ∧
      (∀ r ∈ upper, r.line ≤ Text.lineCount first) ∧
      (∀ r ∈ own, r.line = Text.lineCount first + 1) ∧
      (∀ r ∈ lower, Text.lineCount first < r.line) ∧
      own.length = if language = .lua then 0 else 1 := by
  intro language lineByLine
  obtain ⟨σ, scanner, known, classified⟩ := exists_scanner name extension lineByLine
  let reached := (scanner.resume scanner.start first).2
  obtain ⟨length, kept⟩ := (idles_of_scanner? known).resume reached blank single
  let below := language.recordsBelow name extension scanner reached
  have inner : below (Text.lineCount first) (Text.blankLine pad ++ second) =
      below (Text.lineCount first) (Text.blankLine pad) ++
        (below (Text.lineCount first) second).map (Record.below name 1) := by
    simp only [below, recordsBelow_append _ (Text.isWhole_blankLine pad), kept,
      Text.lineCount_blankLine single, recordsBelow_add]
  refine ⟨language.classify name extension first,
    below (Text.lineCount first) (Text.blankLine pad),
    below (Text.lineCount first) second, ?_, ?_, ?_, ?_, ?_, ?_⟩
  · rw [classified, classified, recordsBelow_append 0 whole, Nat.zero_add]
  · rw [String.append_assoc, classified, classified, recordsBelow_append 0 whole, Nat.zero_add,
      List.append_assoc, ← inner]
  · intro r member
    rw [classified] at member
    have within := line_of_mem_recordsBelow member
    omega
  · intro r member
    have within := line_of_mem_recordsBelow member
    rw [Text.lineCount_blankLine single] at within
    omega
  · exact fun r member => (line_of_mem_recordsBelow member).1
  · simp only [below, recordsBelow, List.length_map, length]

theorem blank_line_neutral_assignment :
    (∀ c ∈ ['\t', '\r'], Text.isBlank c = true) ∧ '\n' ∉ ['\t', '\r'] ∧
    Text.endsLine "int x =\n".toList = true ∧
    Language.c ∈ [Language.c, .cpp, .pascal, .lua, .generic] ∧
    ∃ own : List Record, own.length = 1 ∧
      Language.c.classify "a.c" none ("int x =\n" ++ Text.blankLine ['\t', '\r'] ++ "1;") =
        [⟨"a.c:1", 1, none, some "multiline_assignment_start(0)", "int x ="⟩] ++ own ++
        [⟨"a.c:3", 3, none, some "multiline_assignment_end(0)", "1;"⟩] := by
  have blank : ∀ c ∈ ['\t', '\r'], Text.isBlank c = true :=
    List.forall_mem_cons.2 ⟨by decide, List.forall_mem_singleton.2 (by decide)⟩
  have single : '\n' ∉ ['\t', '\r'] := by decide
  have ended : Text.endsLine "int x =\n".toList = true := by decide +kernel
  have lineByLine : Language.c ∈ [Language.c, .cpp, .pascal, .lua, .generic] := by decide
  refine ⟨blank, single, ended, lineByLine, ?_⟩
  obtain ⟨upper, own, lower, plain, longer, above, -, below, count⟩ :=
    blank_line_neutral "a.c" none (.inr ended) "1;" blank single _ lineByLine
  have records : Language.c.classify "a.c" none ("int x =\n" ++ "1;") =
      [⟨"a.c:1", 1, none, some "multiline_assignment_start(0)", "int x ="⟩,
        ⟨"a.c:2", 2, none, some "multiline_assignment_end(0)", "1;"⟩] := by decide +kernel
  have height : Text.lineCount "int x =\n" = 1 := by decide +kernel
  rw [records] at plain
  rw [height] at above below
  refine ⟨own, count, longer.trans ?_⟩
  -- The cut lies where the line numbers pass the first line.
  rcases upper with _ | ⟨first, _ | ⟨second, rest⟩⟩
  · cases plain
    simp at below
  · cases plain
    rfl
  · simp only [List.cons_append, List.cons.injEq] at plain
    obtain ⟨rfl, rfl, -⟩ := plain
    simp at above

end Language

end LineLedger
