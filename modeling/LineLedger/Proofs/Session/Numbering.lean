import LineLedger.Proofs.Change.Applied
import LineLedger.Proofs.Change.Unfused
import LineLedger.Proofs.Scan.Records
import LineLedger.Proofs.Session.Display
import LineLedger.Python.Parse

set_option autoImplicit false

namespace LineLedger

namespace Language

variable [Python.Grammar] {language : Language} {source : String}

theorem line_of_record (path : Path) {r : Record} (member : r ∈ language.classifyAs path source) :
    ∃ place line, (Text.lines source)[place]? = some line ∧ r.line = place + 1 ∧
      r.text = String.ofList (Text.chomp line.toList) := by
  obtain ⟨m, marked, rfl⟩ := List.mem_map.1 member
  obtain ⟨tags, laid, _⟩ := language.marks_onLines source.toList
  rw [laid] at marked
  obtain ⟨positive, line, found, text⟩ :=
    Text.line_of_mem_numberedLines (Mark.mem_onLines marked)
  exact ⟨m.line - 1, line, found, (Nat.sub_add_cancel positive).symm, text_toRecord _ _ text⟩

theorem lines_classifyAs (dense : language.isDense = true) (path : Path) (source : String) :
    (language.classifyAs path source).map Record.line =
      List.range' 1 (Text.lines source).length := by
  have numbers := lines_marks dense source.toList
  rw [Text.numbers_numberedLines] at numbers
  rw [classifyAs, classify, List.map_map, Text.lines, List.length_map]
  exact numbers

end Language

namespace ChangeSet

def lastShown (set : ChangeSet) (count : Nat) : Nat :=
  max (count - 1) (set.changes.lastKey?.getD 0)

def shownLine (set : ChangeSet) (lines : List String) (line : Nat) : String :=
  (((set.get? line).map Change.replacement).or lines[line]?).getD ""

def shown (set : ChangeSet) (lines : List String) : List String :=
  (List.range (set.lastShown lines.length)).map (Text.terminated ∘ set.shownLine lines) ++
    [set.shownLine lines (set.lastShown lines.length)]

section Shown

variable {set : ChangeSet} {text : String}

theorem getElem?_shown (set : ChangeSet) (lines : List String) (line : Nat) :
    (set.shown lines)[line]? =
      if line < set.lastShown lines.length then some (Text.terminated (set.shownLine lines line))
      else if line = set.lastShown lines.length then some (set.shownLine lines line)
      else none := by
  rw [shown]
  rcases Nat.lt_trichotomy line (set.lastShown lines.length) with above | here | below
  · rw [List.getElem?_append_left (by simpa using above)]
    simp [above]
  · simp [here]
  · rw [List.getElem?_eq_none (by simpa using below), if_neg (by omega), if_neg (by omega)]

theorem length_shown (set : ChangeSet) (lines : List String) :
    (set.shown lines).length = set.lastShown lines.length + 1 := by
  simp [shown]

theorem Orderly.lastShown_eq (orderly : set.Orderly) (inhabited : set.isEmpty = false)
    (count : Nat) :
    ∃ c ∈ set.toList, set.lastShown count = max (count - 1) c.line ∧
      ∀ other ∈ set.toList, other.line ≤ c.line := by
  obtain ⟨c, member⟩ : ∃ c, c ∈ set.toList := by
    refine List.exists_mem_of_ne_nil _ fun none => ?_
    simp [toList, Table.values, isEmpty, Table.isEmpty] at none inhabited
    exact inhabited none
  obtain ⟨last, listed, key, most⟩ := orderly.exists_last member
  exact ⟨last, listed, by rw [lastShown, key, Option.getD_some], most⟩

-- A line of the file is ended where something is shown below it.
theorem Orderly.getElem?_ground (orderly : set.Orderly) (inhabited : set.isEmpty = false)
    (text : String) (line : Nat) :
    (set.ground (Text.lines text))[line]? = (Text.lines text)[line]?.map fun kept =>
      if line < set.lastShown (Text.lines text).length then Text.terminated kept else kept := by
  obtain ⟨c, member, last, most⟩ := orderly.lastShown_eq inhabited (Text.lines text).length
  cases found : (Text.lines text)[line]? with
  | none =>
      rw [List.getElem?_eq_none_iff, ← set.length_ground, ← List.getElem?_eq_none_iff] at found
      exact found
  | some kept =>
      have within := (List.getElem?_eq_some_iff.1 found).1
      have inner : line + 1 ≠ (Text.lines text).length → Text.terminated kept = kept := by
        intro above
        have listed : (Text.lines text).dropLast[line]? = some kept := by
          rw [List.getElem?_dropLast, if_pos (by omega), found]
        exact Text.terminated_of_endsLine
          (Text.ended_of_mem_dropLast_lines (List.mem_of_getElem? listed)).1
      rw [ground, last]
      -- The ground ends the last line just if a change is past it; all lines above are ended anyway.
      by_cases past : ∃ c ∈ set.toList, (Text.lines text).length ≤ c.line
      · obtain ⟨other, among, far⟩ := past
        have below : line < max ((Text.lines text).length - 1) c.line := by
          have further := most other among
          omega
        rw [if_pos ((orderly.reachesPast_iff _).2 ⟨other, among, far⟩), getElem?_terminateLast,
          found, Option.map_some, Option.map_some, if_pos below]
        split
        · rfl
        · rename_i above
          rw [inner above]
      · have near : c.line < (Text.lines text).length :=
          Nat.lt_of_not_le fun far => past ⟨c, member, far⟩
        rw [if_neg (mt (orderly.reachesPast_iff _).1 past), found, Option.map_some]
        split
        · rw [inner (by omega)]
        · rfl

theorem Orderly.reach_overlay (orderly : set.Orderly) (inhabited : set.isEmpty = false)
    (text : String) (line : Nat) :
    (∃ e ∈ (set.overlay (Text.lines text)).entries, line ≤ e.1) ↔
      line ≤ set.lastShown (Text.lines text).length := by
  obtain ⟨c, member, last, most⟩ := orderly.lastShown_eq inhabited (Text.lines text).length
  rw [last]
  constructor
  · rintro ⟨⟨place, entry⟩, listed, above⟩
    rcases orderly.value_overlay ((Table.get?_eq_some_iff _ _ _).2 listed) with
      ⟨other, among, rfl, -⟩ | ⟨-, kept⟩
    · have := most other among
      simp only at above
      omega
    · have within := (List.getElem?_eq_some_iff.1 kept).1
      rw [length_ground] at within
      simp only at above
      omega
  · intro above
    by_cases near : line ≤ c.line
    · have shown : (set.overlay (Text.lines text)).get? c.line = some c.replacement := by
        rw [orderly.get?_overlay, (orderly.mem_toList c).1 member]
        rfl
      exact ⟨_, (Table.get?_eq_some_iff _ _ _).1 shown, near⟩
    · -- No change is this far down, so the last line of the file is shown as it is.
      have within : (Text.lines text).length - 1 < (set.ground (Text.lines text)).length := by
        rw [length_ground]
        omega
      obtain ⟨entry, shown⟩ : ∃ entry, (set.overlay (Text.lines text)).get?
          ((Text.lines text).length - 1) = some entry := by
        rw [orderly.get?_overlay, List.getElem?_eq_getElem within]
        cases set.get? ((Text.lines text).length - 1) <;> simp
      have bound : line ≤ (Text.lines text).length - 1 := by omega
      exact ⟨_, (Table.get?_eq_some_iff _ _ _).1 shown, bound⟩

-- A blank line stands in a gap, which has a change below it.
theorem Orderly.piece_shown (orderly : set.Orderly) (inhabited : set.isEmpty = false)
    (text : String) {line : Nat} (above : line ≤ set.lastShown (Text.lines text).length) :
    (((set.get? line).map Change.replacement).or (set.ground (Text.lines text))[line]?).getD "\n" =
      if line < set.lastShown (Text.lines text).length then
        Text.terminated (set.shownLine (Text.lines text) line)
      else set.shownLine (Text.lines text) line := by
  rw [orderly.getElem?_ground inhabited, shownLine]
  cases changed : set.get? line with
  | some c =>
      have same := Text.terminated_of_endsLine
        (Change.endsLine_replacement (orderly.ended line c changed))
      simp [same]
  | none =>
      cases kept : (Text.lines text)[line]? with
      | some whole => rfl
      | none =>
          obtain ⟨c, member, last, -⟩ := orderly.lastShown_eq inhabited (Text.lines text).length
          have past := List.getElem?_eq_none_iff.1 kept
          have apart : line ≠ c.line := by
            rintro rfl
            cases changed.symm.trans ((orderly.mem_toList c).1 member)
          rw [last] at above ⊢
          rw [if_pos (by omega)]
          rfl

theorem Orderly.pieces_eq_shown (orderly : set.Orderly) (inhabited : set.isEmpty = false)
    (text : String) : set.pieces (Text.lines text) = set.shown (Text.lines text) := by
  apply List.ext_getElem?
  intro line
  rw [pieces, getElem?_withoutGaps (set.overlay _).ascending fun e _ => Nat.zero_le _,
    Nat.zero_add, ← Table.get?, orderly.get?_overlay, getElem?_shown]
  simp only [orderly.reach_overlay inhabited]
  rcases Nat.lt_trichotomy line (set.lastShown (Text.lines text).length) with above | here | below
  · rw [if_pos (Nat.le_of_lt above), orderly.piece_shown inhabited text (Nat.le_of_lt above),
      if_pos above, if_pos above]
  · have bound := Nat.le_of_eq here
    rw [if_pos bound, orderly.piece_shown inhabited text bound, if_neg (by omega),
      if_neg (by omega), if_pos here]
  · rw [if_neg (by omega), if_neg (by omega), if_neg (by omega)]

theorem Orderly.single_shown (orderly : set.Orderly) (inhabited : set.isEmpty = false)
    (oneLine : set.OneLine) (text : String) :
    ∀ line ∈ set.shown (Text.lines text), Text.lines line = [line] := by
  intro line member
  rw [← orderly.pieces_eq_shown inhabited] at member
  rcases mem_withoutGaps member with rfl | shown
  · rfl
  · exact orderly.single_overlay (orderly.lines_replacement oneLine) text line shown

theorem Orderly.lines_join_shown (orderly : set.Orderly) (inhabited : set.isEmpty = false)
    (oneLine : set.OneLine) (text : String) :
    Text.lines (String.join (set.shown (Text.lines text))) = set.shown (Text.lines text) := by
  have ended : ∀ line ∈ (set.shown (Text.lines text)).dropLast,
      Text.endsLine line.toList = true := by
    intro line member
    rw [shown, List.dropLast_concat] at member
    obtain ⟨number, -, rfl⟩ := List.mem_map.1 member
    exact Text.endsLine_terminated _
  exact Text.lines_join_of_single ended (orderly.single_shown inhabited oneLine text)

theorem chomp_shown {lines : List String} {number : Nat} {line : String}
    (found : (set.shown lines)[number]? = some line) :
    number ≤ set.lastShown lines.length ∧
      Text.chomp line.toList = Text.chomp (set.shownLine lines number).toList := by
  rw [getElem?_shown] at found
  split at found
  · cases found
    rw [Text.terminated, String.toList_ofList, Text.chomp_terminate]
    exact ⟨Nat.le_of_lt ‹_›, rfl⟩
  · split at found
    · cases found
      exact ⟨Nat.le_of_eq ‹_›, rfl⟩
    · cases found

end Shown

end ChangeSet

namespace Session

theorem display_numbering [Python.Grammar] {s : Session} {d : Disk} {path : Path}
    {set : ChangeSet} {text : String}
    (found : s.pending.get? path = some set) (recorded : set.Recorded) (oneLine : set.OneLine)
    (read : d.readText path = .ok text) :
    let lines := Text.lines text
    let last := set.lastShown lines.length
    let language := (s.registry.lookUpPath path).1
    ∃ rows, (s.display d path).1 = .ok rows ∧
      rows.map Row.record = language.classifyAs path (String.join (set.shown lines)) ∧
      (∀ row ∈ rows, ∃ number ≤ last, row.record.line = number + 1 ∧
        row.record.text = String.ofList (Text.chomp (set.shownLine lines number).toList)) ∧
      (language ∈ [.c, .cpp, .pascal, .generic] →
        rows.map (fun row => row.record.line) = List.range' 1 (last + 1)) := by
  intro lines last language
  have orderly := set.recorded_iff_orderly.1 recorded
  have inhabited : set.isEmpty = false := by
    simpa using (Option.filter_eq_some_iff.1 found).2
  have rejoined := orderly.lines_join_shown inhabited oneLine text
  have shown := congrArg Prod.fst (display_pending found read)
  rw [orderly.pieces_eq_shown inhabited] at shown
  refine ⟨_, shown, by simp [Pending.rowOf, Function.comp_def, language, lines], ?_, ?_⟩
  · intro row member
    obtain ⟨r, classified, rfl⟩ := List.mem_map.1 member
    obtain ⟨number, line, present, numbered, literal⟩ := Language.line_of_record path classified
    rw [rejoined] at present
    obtain ⟨bound, same⟩ := ChangeSet.chomp_shown present
    exact ⟨number, bound, numbered, by rw [← same]; exact literal⟩
  · intro listed
    have dense : language.isDense = true := by
      simp only [List.mem_cons, List.not_mem_nil, or_false] at listed
      rcases listed with same | same | same | same <;> rw [same] <;> rfl
    have numbers := Language.lines_classifyAs dense path (String.join (set.shown lines))
    rw [rejoined, ChangeSet.length_shown] at numbers
    rw [List.map_map]
    exact numbers

def spread : Disk :=
  ⟨⟨.ofList [(["a.c"], .file (.text "a();\r\nb();") false)], by decide +kernel⟩, [], ⟨""⟩⟩

def spreadChanges : List Change := [.deletion 0 none, .insertion 3 "c();\r"]

def spreading : Session :=
  ⟨⟨""⟩, .default, .empty, spreadChanges.foldl (fun p c => p.record ⟨"a.c"⟩ c) .empty⟩

theorem display_numbering_spread :
    let set := spreadChanges.foldl ChangeSet.record (.empty ⟨"a.c"⟩)
    spreading.pending.get? ⟨"a.c"⟩ = some set ∧ set.Recorded ∧ set.OneLine ∧
    spread.readText ⟨"a.c"⟩ = .ok "a();\r\nb();" ∧
    ∃ rows, (spreading.display spread ⟨"a.c"⟩).1 = .ok rows ∧
      rows.map (fun row => row.record.line) = [1, 2, 3, 4] ∧
      ∀ row ∈ rows, ∃ number ≤ 3, row.record.line = number + 1 ∧
        row.record.text = ["", "b();", "", "c();"].getD number "" := by
  intro set
  have recorded : set.Recorded := by
    refine ⟨spreadChanges, fun c member => ?_, rfl⟩
    simp only [spreadChanges, List.mem_cons, List.not_mem_nil, or_false] at member
    rcases member with rfl | rfl <;> exact ⟨_, _, _, _, rfl⟩
  have oneLine : set.OneLine := by decide
  have found : spreading.pending.get? ⟨"a.c"⟩ = some set := rfl
  have read : spread.readText ⟨"a.c"⟩ = .ok "a();\r\nb();" := rfl
  obtain ⟨rows, shown, -, literal, numbers⟩ := display_numbering found recorded oneLine read
  refine ⟨found, recorded, oneLine, read, rows, shown, numbers (by decide +kernel),
    fun row member => ?_⟩
  obtain ⟨number, bound, here, text⟩ := literal row member
  have texts : ∀ number ≤ 3,
      String.ofList (Text.chomp (set.shownLine ["a();\r\n", "b();"] number).toList) =
        ["", "b();", "", "c();"].getD number "" := by decide +kernel
  exact ⟨number, bound, here, text.trans (texts number bound)⟩

end Session

end LineLedger
