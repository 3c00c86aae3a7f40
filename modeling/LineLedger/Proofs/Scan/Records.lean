import LineLedger.Proofs.Scan
import LineLedger.Proofs.Text.Pieces

set_option autoImplicit false

namespace LineLedger

namespace Text

theorem line_of_mem_numberedLines {source : String} {number : Nat} {line : List Char}
    (member : (number, line) ∈ numberedLines source.toList) :
    1 ≤ number ∧ ∃ whole, (lines source)[number - 1]? = some whole ∧ line = chomp whole.toList := by
  obtain ⟨place, found⟩ := List.mem_iff_getElem?.1 member
  have within : place < (lines source).length := by
    have within := (List.getElem?_eq_some_iff.1 found).1
    rwa [← List.length_map, numbers_numberedLines, List.length_range', ← List.length_map] at within
  have present := getElem?_numberedLines (List.getElem?_eq_getElem within)
  rw [found] at present
  cases present
  exact ⟨Nat.succ_pos place, _, List.getElem?_eq_getElem within, rfl⟩

theorem ascending_numberedLines (text : List Char) :
    (numberedLines text).Pairwise fun a b => a.1 < b.1 := by
  have ascending := List.pairwise_lt_range' (s := 1) (n := (splitLines text).length)
  rwa [← numbers_numberedLines, List.pairwise_map] at ascending

end Text

structure Describes (name source : String) (records : List Record) : Prop where
  ordered : records.Pairwise fun a b => a.line ≤ b.line
  numbered : ∀ r ∈ records, 1 ≤ r.line ∧ r.line ≤ (Text.lines source).length
  located : ∀ r ∈ records, r.location = name ++ ":" ++ toString r.line
  literal : ∀ r ∈ records, ∃ line breaks, (Text.lines source)[r.line - 1]? = some line ∧
    line.toList = r.text.toList ++ breaks ∧ (∀ c ∈ breaks, c = '\r' ∨ c = '\n') ∧
    ∀ c, r.text.toList.getLast? = some c → c ≠ '\r' ∧ c ≠ '\n'

section Layout

variable (name source : String) (extension : Option String) (tags : List (List (Option String)))

theorem text_toRecord {m : Mark} {whole : String} (text : m.text = Text.chomp whole.toList) :
    (Mark.toRecord name extension m).text = String.ofList (Text.chomp whole.toList) := by
  rw [Mark.toRecord, Record.make, text, String.toList_ofList]
  exact congrArg String.ofList (Text.dropEndWhile_dropEndWhile _ _)

theorem describes_onLines :
    Describes name source ((Mark.onLines (Text.numberedLines source.toList) tags).map
      (Mark.toRecord name extension)) where
  ordered := by
    rw [List.pairwise_map]
    exact Mark.ordered_onLines (Text.ascending_numberedLines source.toList) tags
  numbered r member := by
    obtain ⟨m, marked, rfl⟩ := List.mem_map.1 member
    obtain ⟨positive, whole, found, _⟩ :=
      Text.line_of_mem_numberedLines (Mark.mem_onLines marked)
    have within := (List.getElem?_eq_some_iff.1 found).1
    change 1 ≤ m.line ∧ m.line ≤ (Text.lines source).length
    omega
  located r member := by
    obtain ⟨m, _, rfl⟩ := List.mem_map.1 member
    rfl
  literal r member := by
    obtain ⟨m, marked, rfl⟩ := List.mem_map.1 member
    obtain ⟨_, whole, found, text⟩ := Text.line_of_mem_numberedLines (Mark.mem_onLines marked)
    obtain ⟨breaks, split, all, kept⟩ := Text.strips_chomp whole.toList
    rw [text_toRecord name extension text, String.toList_ofList]
    exact ⟨whole, breaks, found, split, all, kept⟩

theorem length_recordsAt {tags : List (List (Option String))} {place : Nat} {line : String}
    {own : List (Option String)} (found : (Text.lines source)[place]? = some line)
    (tagged : tags[place]? = some own) :
    (((Mark.onLines (Text.numberedLines source.toList) tags).map
      (Mark.toRecord name extension)).filter (·.line = place + 1)).length = own.length := by
  have marks := Mark.filter_onLines (Text.ascending_numberedLines source.toList)
    (Text.getElem?_numberedLines found) tagged
  rw [List.filter_map, List.length_map]
  exact (congrArg List.length marks).trans (List.length_map _)

end Layout

namespace Lua

def codeLines : Bool → List (List Char) → List (List Char)
  | _, [] => []
  | inComment, line :: rest =>
    let (code, inComment) := strip inComment line
    code :: codeLines inComment rest

theorem length_classifyAll (nesting : Nesting) (codes : List (List Char)) :
    (classifyAll nesting codes).1.length ≤ codes.length := by
  induction codes generalizing nesting with
  | nil => exact Nat.le_refl 0
  | cons code rest ih =>
      have later := ih (classify nesting code).2
      have here : (classify nesting code).1.toList.length ≤ 1 := by
        cases (classify nesting code).1 <;> simp
      simp only [classifyAll, List.length_append, List.length_cons]
      omega

theorem tags_of_line (state : State) {lines : List (List Char)} {place : Nat} {line : List Char}
    (found : lines[place]? = some line) :
    ∃ own code, (scanner.tags state lines)[place]? = some own ∧
      (codeLines state.inComment lines)[place]? = some code ∧
      own.length ≤ (Text.splitAt (· = ';') code).length := by
  induction lines generalizing state place with
  | nil => cases found
  | cons head rest ih =>
      cases place with
      | zero =>
          have pieces :=
            length_classifyAll state.nesting (statements (strip state.inComment head).1)
          rw [statements, List.length_map] at pieces
          exact ⟨_, _, rfl, rfl, Nat.le_trans (Nat.le_of_eq (List.length_map _)) pieces⟩
      | succ below => exact ih (scanner.step state head).2 found

end Lua

namespace Python

theorem rows_record {o : Outline}
    (inhabited : ∀ row found, o.rows.get? row = some found → found ≠ []) (v : Visit) :
    ∀ row found, (v.record o).rows.get? row = some found → found ≠ [] := by
  intro row found present
  rw [Visit.record] at present
  split at present
  · exact inhabited row found present
  · split at present
    · rw [Outline.add, Table.get?_insert] at present
      split at present
      · cases present
        exact List.append_ne_nil_of_right_ne_nil _ (List.cons_ne_nil _ _)
      · exact inhabited row found present
    · exact inhabited row found present

theorem rows_visitAll {o : Outline}
    (inhabited : ∀ row found, o.rows.get? row = some found → found ≠ []) (visits : List Visit) :
    ∀ row found, (visitAll o visits).rows.get? row = some found → found ≠ [] := by
  induction o, visits using visitAll.induct with
  | case1 o =>
      rw [visitAll]
      exact inhabited
  | case2 o v rest ih =>
      rw [visitAll]
      exact ih (rows_record inhabited v)

theorem rows_outline (tree : Tree) :
    ∀ row found, (outline tree).rows.get? row = some found → found ≠ [] := by
  refine rows_visitAll ?_ [⟨⟨tree, []⟩, 0⟩]
  intro row found present
  cases present

theorem tags_cons {o : Outline}
    (inhabited : ∀ row found, o.rows.get? row = some found → found ≠ []) (level number : Nat)
    (line : List Char) (rest : List (Nat × List Char)) :
    ∃ own next, tags o level ((number, line) :: rest) = own :: tags o next rest ∧
      (own = [] ↔ isSilent line = true) := by
  rw [tags]
  split
  · rename_i silent
    exact ⟨[], level, rfl, by simp [silent]⟩
  · rename_i spoken
    split
    · rename_i found present
      exact ⟨_, lastLevel level found, rfl, by simp [inhabited _ _ present, spoken]⟩
    · exact ⟨_, level, rfl, by simp [spoken]⟩

theorem tags_eq_nil_iff {o : Outline}
    (inhabited : ∀ row found, o.rows.get? row = some found → found ≠ []) (level : Nat)
    {numbered : List (Nat × List Char)} {place number : Nat} {line : List Char}
    (present : numbered[place]? = some (number, line)) :
    ∃ own, (tags o level numbered)[place]? = some own ∧ (own = [] ↔ isSilent line = true) := by
  induction numbered generalizing level place with
  | nil => cases present
  | cons head rest ih =>
      obtain ⟨own, next, split, silent⟩ := tags_cons inhabited level head.1 head.2 rest
      rw [split]
      cases place with
      | zero =>
          cases present
          exact ⟨own, rfl, silent⟩
      | succ below => exact ih next present

theorem isSilent_iff (line : List Char) :
    isSilent line = true ↔ Text.trim line = [] ∨ (Text.trim line).head? = some '#' := by
  rw [isSilent]
  cases Text.trim line <;> simp

end Python

theorem records_describe [Python.Grammar] (name : String) (extension : Option String)
    (source : String) :
    (∀ language : Language, Describes name source (language.classify name extension source)) ∧
    (∀ language ∈ [Language.c, .cpp, .pascal, .generic],
      (language.classify name extension source).map Record.line =
        List.range' 1 (Text.lines source).length) ∧
    (∀ place line, (Text.lines source)[place]? = some line →
      let codes := Lua.codeLines false ((Text.numberedLines source.toList).map Prod.snd)
      ∃ code, codes[place]? = some code ∧
        ((Language.lua.classify name extension source).filter (·.line = place + 1)).length ≤
          (Text.splitAt (· = ';') code).length) ∧
    ∀ tree : Python.Tree,
      let records := (Python.scanTree tree source.toList).map (Mark.toRecord name extension)
      Describes name source records ∧
      ∀ place line, (Text.lines source)[place]? = some line →
        (records.filter (·.line = place + 1) = [] ↔
          Text.trim line.toList = [] ∨ (Text.trim line.toList).head? = some '#') := by
  refine ⟨fun language => ?_, fun language listed => ?_, ?_, fun tree => ?_⟩
  · obtain ⟨tags, laid, _⟩ := language.marks_onLines source.toList
    rw [Language.classify, laid]
    exact describes_onLines name source _ tags
  · have dense : language.isDense = true := by
      simp only [List.mem_cons, List.not_mem_nil, or_false] at listed
      rcases listed with rfl | rfl | rfl | rfl <;> rfl
    have numbers := Language.lines_marks dense source.toList
    rw [Text.numbers_numberedLines] at numbers
    rw [Language.classify, List.map_map, Text.lines, List.length_map]
    exact numbers
  · intro place line found codes
    have present : ((Text.numberedLines source.toList).map Prod.snd)[place]? =
        some (Text.chomp line.toList) := by
      rw [List.getElem?_map, Text.getElem?_numberedLines found]
      rfl
    obtain ⟨own, code, tagged, stripped, fewer⟩ := Lua.tags_of_line .start present
    have laid := Lua.scanner.marks_run .start (Text.numberedLines source.toList)
    have count := length_recordsAt name source extension found tagged
    rw [← laid] at count
    exact ⟨code, stripped, Nat.le_trans (Nat.le_of_eq count) fewer⟩
  · have laid := Python.marks_eq (Python.outline tree) 0 (Text.numberedLines source.toList)
    rw [Python.scanTree, laid]
    refine ⟨describes_onLines name source extension _, fun place line found => ?_⟩
    obtain ⟨own, tagged, silent⟩ :=
      Python.tags_eq_nil_iff (Python.rows_outline tree) 0 (Text.getElem?_numberedLines found)
    rw [← List.length_eq_zero_iff, length_recordsAt name source extension found tagged,
      List.length_eq_zero_iff, silent, Python.isSilent_iff, Text.trim_chomp]

end LineLedger
