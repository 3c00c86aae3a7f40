import LineLedger.Proofs.Change.Unfused
import LineLedger.Proofs.Pending.Calls
import LineLedger.Proofs.Scan
import LineLedger.Proofs.Session.Display
import LineLedger.Python.Parse

set_option autoImplicit false

namespace LineLedger

-- The physical line, counted from 1, that the text of a line starts on.
def startLine (pieces : List String) (line : Nat) : Nat :=
  Text.lineCount (String.join (pieces.take line)) + 1

namespace ChangeSet

def LineForLine (set : ChangeSet) : Prop :=
  ∀ c ∈ set.toList, ∀ later ∈ set.toList, c.line < later.line → Text.lineCount c.replacement = 1

instance (set : ChangeSet) : Decidable set.LineForLine :=
  inferInstanceAs (Decidable (∀ c ∈ set.toList, ∀ later ∈ set.toList, _))

-- Some change above puts in another number of lines than one.
def Moved (set : ChangeSet) (c : Change) : Prop :=
  ∃ above ∈ set.toList, above.line < c.line ∧ Text.lineCount above.replacement ≠ 1

theorem lineForLine_iff {set : ChangeSet} : set.LineForLine ↔ ∀ c ∈ set.toList, ¬ set.Moved c := by
  constructor
  · rintro lineForLine c member ⟨above, listed, below, more⟩
    exact more (lineForLine above listed c member below)
  · intro still c member later listed below
    exact Decidable.byContradiction fun more => still later listed ⟨c, member, below, more⟩

-- A row is marked with a kind if its line is where the text of such a change starts, and only then.
def MarksRight (set : ChangeSet) (lines : List String) (rows : List Row) : Prop :=
  ∀ row ∈ rows, ∀ kind, row.pending = some kind ↔
    ∃ c ∈ set.toList, c.kind = kind ∧ row.record.line = startLine (set.pieces lines) c.line

section Pieces

variable {set : ChangeSet} {c : Change}

theorem Orderly.getElem?_pieces (orderly : set.Orderly) (lines : List String)
    (member : c ∈ set.toList) {line : Nat} (above : line ≤ c.line) :
    (set.pieces lines)[line]? =
      some ((((set.get? line).map Change.replacement).or (set.ground lines)[line]?).getD "\n") := by
  have found := (orderly.mem_toList c).1 member
  have shown : (c.line, c.replacement) ∈ (set.overlay lines).entries := by
    rw [← Table.get?_eq_some_iff, orderly.get?_overlay, found]
    rfl
  rw [pieces, getElem?_withoutGaps (set.overlay lines).ascending fun e _ => Nat.zero_le _,
    Nat.zero_add, if_pos ⟨_, shown, above⟩, ← Table.get?, orderly.get?_overlay]

theorem Orderly.piece_of_change (orderly : set.Orderly) (lines : List String)
    (member : c ∈ set.toList) : (set.pieces lines)[c.line]? = some c.replacement := by
  rw [orderly.getElem?_pieces lines member (Nat.le_refl _), (orderly.mem_toList c).1 member]
  rfl

theorem Orderly.ground_above (orderly : set.Orderly) {text kept : String} {line : Nat}
    (member : c ∈ set.toList) (below : line < c.line)
    (present : (set.ground (Text.lines text))[line]? = some kept) :
    Text.endsLine kept.toList = true ∧ Text.lineCount kept = 1 := by
  by_cases past : ∃ c ∈ set.toList, (Text.lines text).length ≤ c.line
  · have listed := List.mem_of_getElem? present
    rw [ground, if_pos ((orderly.reachesPast_iff _).2 past)] at listed
    exact Text.ended_of_mem_terminateLast_lines listed
  · -- The change is on a line of the text, so this line is not the last.
    have inside : c.line < (Text.lines text).length :=
      Nat.lt_of_not_le fun beyond => past ⟨c, member, beyond⟩
    rw [ground, if_neg (mt (orderly.reachesPast_iff _).1 past)] at present
    have kept : (Text.lines text).dropLast[line]? = some kept := by
      rw [List.getElem?_dropLast, if_pos (by omega), present]
    exact Text.ended_of_mem_dropLast_lines (List.mem_of_getElem? kept)

-- Above a change everything ends in a line feed, and is one line unless it is put in.
theorem Orderly.piece_above (orderly : set.Orderly) (text : String) (member : c ∈ set.toList)
    {piece : String} (above : piece ∈ (set.pieces (Text.lines text)).take c.line) :
    Text.endsLine piece.toList = true ∧ (Text.lineCount piece = 1 ∨
      ∃ other ∈ set.toList, other.line < c.line ∧ piece = other.replacement) := by
  obtain ⟨line, found⟩ := List.mem_iff_getElem?.1 above
  have below : line < c.line := by
    have within := (List.getElem?_eq_some_iff.1 found).1
    rw [List.length_take] at within
    omega
  rw [List.getElem?_take_of_lt below,
    orderly.getElem?_pieces _ member (Nat.le_of_lt below)] at found
  cases changed : set.get? line with
  | some other =>
      rw [changed] at found
      cases found
      have here := orderly.placed line other changed
      have listed := (orderly.mem_toList other).2 (by rwa [here])
      exact ⟨Change.endsLine_replacement (orderly.ended_of_mem listed),
        .inr ⟨other, listed, by omega, rfl⟩⟩
  | none =>
      rw [changed] at found
      cases present : (set.ground (Text.lines text))[line]? with
      | none =>
          rw [present] at found
          cases found
          exact ⟨rfl, .inl rfl⟩
      | some kept =>
          rw [present] at found
          cases found
          have ⟨ended, single⟩ := orderly.ground_above member below present
          exact ⟨ended, .inl single⟩

theorem Orderly.endsLine_above (orderly : set.Orderly) (text : String) (member : c ∈ set.toList) :
    ∀ piece ∈ (set.pieces (Text.lines text)).take c.line, Text.endsLine piece.toList = true :=
  fun _ above => (orderly.piece_above text member above).1

theorem Orderly.startLine_change (orderly : set.Orderly) (text : String)
    (member : c ∈ set.toList) :
    c.line + 1 ≤ startLine (set.pieces (Text.lines text)) c.line ∧
      (startLine (set.pieces (Text.lines text)) c.line = c.line + 1 ↔
        ∀ piece ∈ (set.pieces (Text.lines text)).take c.line, Text.lineCount piece = 1) := by
  have found := orderly.piece_of_change (Text.lines text) member
  have within := (List.getElem?_eq_some_iff.1 found).1
  have length : ((set.pieces (Text.lines text)).take c.line).length = c.line := by
    rw [List.length_take]
    exact Nat.min_eq_left (Nat.le_of_lt within)
  have counts := Text.lineCount_join (orderly.endsLine_above text member)
  rw [length] at counts
  rw [startLine, ← counts.2]
  omega

theorem Orderly.lines_from_startLine (orderly : set.Orderly) (text : String)
    (member : c ∈ set.toList) :
    ∃ rest, (Text.lines (String.join (set.pieces (Text.lines text)))).drop
      (startLine (set.pieces (Text.lines text)) c.line - 1) =
        Text.lines c.replacement ++ rest := by
  have found := orderly.piece_of_change (Text.lines text) member
  have ended := orderly.endsLine_above text member
  have replaced := Change.endsLine_replacement (orderly.ended_of_mem member)
  generalize set.pieces (Text.lines text) = pieces at found ended
  have split : pieces = pieces.take c.line ++ c.replacement :: pieces.drop (c.line + 1) := by
    obtain ⟨within, here⟩ := List.getElem?_eq_some_iff.1 found
    rw [← here, ← List.drop_eq_getElem_cons within, List.take_append_drop]
  have source : Text.lines (String.join pieces) =
      Text.lines (String.join (pieces.take c.line)) ++
        (Text.lines c.replacement ++ Text.lines (String.join (pieces.drop (c.line + 1)))) := by
    rw [← Text.lines_append replaced, ← String.join_cons, ← Text.lines_join_append ended,
      ← String.join_append, ← split]
  refine ⟨Text.lines (String.join (pieces.drop (c.line + 1))), ?_⟩
  rw [source, startLine, Nat.add_sub_cancel]
  exact List.drop_left' rfl

theorem Orderly.startLine_le (orderly : set.Orderly) (text : String) (member : c ∈ set.toList) :
    startLine (set.pieces (Text.lines text)) c.line ≤
      Text.lineCount (String.join (set.pieces (Text.lines text))) := by
  obtain ⟨rest, from_start⟩ := orderly.lines_from_startLine text member
  have positive := Text.lineCount_pos (Change.endsLine_replacement (orderly.ended_of_mem member))
  have length := congrArg List.length from_start
  rw [List.length_drop, List.length_append] at length
  unfold Text.lineCount at positive ⊢
  omega

theorem Orderly.startLine_eq_iff (orderly : set.Orderly) (text : String)
    (member : c ∈ set.toList) :
    startLine (set.pieces (Text.lines text)) c.line = c.line + 1 ↔ ¬ set.Moved c := by
  rw [(orderly.startLine_change text member).2]
  constructor
  · rintro single ⟨above, listed, below, more⟩
    have taken : ((set.pieces (Text.lines text)).take c.line)[above.line]? =
        some above.replacement := by
      rw [List.getElem?_take_of_lt below]
      exact orderly.piece_of_change _ listed
    exact more (single above.replacement (List.mem_of_getElem? taken))
  · intro still piece above
    rcases (orderly.piece_above text member above).2 with single | ⟨other, listed, below, same⟩
    · exact single
    · rw [same]
      exact Decidable.byContradiction fun more => still ⟨other, listed, below, more⟩

-- The text of a change stands between its start and that of any later one.
theorem Orderly.startLine_lt (orderly : set.Orderly) (text : String) (member : c ∈ set.toList)
    {later : Change} (listed : later ∈ set.toList) (below : c.line < later.line) :
    startLine (set.pieces (Text.lines text)) c.line <
      startLine (set.pieces (Text.lines text)) later.line := by
  have found := orderly.piece_of_change (Text.lines text) member
  have ended := orderly.endsLine_above text listed
  have positive := Text.lineCount_pos (Change.endsLine_replacement (orderly.ended_of_mem member))
  generalize set.pieces (Text.lines text) = pieces at found ended ⊢
  obtain ⟨within, here⟩ := List.getElem?_eq_some_iff.1 found
  have split : pieces.take later.line =
      pieces.take c.line ++ c.replacement :: (pieces.take later.line).drop (c.line + 1) := by
    rw [← here]
    conv_lhs => rw [← List.take_append_drop c.line (pieces.take later.line)]
    rw [List.take_take, Nat.min_eq_left (Nat.le_of_lt below),
      List.drop_eq_getElem_cons (by rw [List.length_take]; omega), List.getElem_take]
  rw [split, List.forall_mem_append, List.forall_mem_cons] at ended
  have count := Text.lines_join_append ended.1
    (String.join (c.replacement :: (pieces.take later.line).drop (c.line + 1)))
  rw [← String.join_append, ← split] at count
  have whole := congrArg List.length count
  rw [List.length_append, String.join_cons, Text.lines_append ended.2.1,
    List.length_append] at whole
  unfold startLine Text.lineCount at *
  omega

theorem Orderly.eq_of_line (orderly : set.Orderly) (member : c ∈ set.toList) {other : Change}
    (listed : other ∈ set.toList) (same : other.line = c.line) : other = c := by
  rw [orderly.mem_toList] at member listed
  rw [same] at listed
  exact Option.some.inj (listed.symm.trans member)

theorem Orderly.eq_of_startLine (orderly : set.Orderly) (text : String) (member : c ∈ set.toList)
    {other : Change} (listed : other ∈ set.toList)
    (same : startLine (set.pieces (Text.lines text)) other.line =
      startLine (set.pieces (Text.lines text)) c.line) : other = c := by
  rcases Nat.lt_trichotomy other.line c.line with above | here | below
  · exact absurd same (Nat.ne_of_lt (orderly.startLine_lt text listed member above))
  · exact orderly.eq_of_line member listed here
  · exact absurd same.symm (Nat.ne_of_lt (orderly.startLine_lt text member listed below))

end Pieces

section Rows

variable {set : ChangeSet} {text : String}

theorem Orderly.marked_iff (orderly : set.Orderly) {r : Record} (positive : 0 < r.line)
    (kind : ChangeKind) :
    (Pending.rowOf (some set) r).pending = some kind ↔
      ∃ c ∈ set.toList, c.kind = kind ∧ r.line = c.line + 1 := by
  simp only [Pending.rowOf, Option.bind_some, Option.map_eq_some_iff]
  constructor
  · rintro ⟨c, found, same⟩
    have here := orderly.placed _ c found
    exact ⟨c, (orderly.mem_toList c).2 (by rwa [here]), same, by omega⟩
  · rintro ⟨c, member, same, here⟩
    refine ⟨c, ?_, same⟩
    rw [here, Nat.add_sub_cancel]
    exact (orderly.mem_toList c).1 member

variable {records : List Record}

theorem Orderly.marksRight_iff (orderly : set.Orderly) (text : String)
    (numbered : ∀ r ∈ records, 0 < r.line) :
    set.MarksRight (Text.lines text) (records.map (Pending.rowOf (some set))) ↔
      ∀ row ∈ records.map (Pending.rowOf (some set)), ∀ kind,
        (∃ c ∈ set.toList, set.Moved c ∧ c.kind = kind ∧ row.record.line = c.line + 1) ↔
          ∃ c ∈ set.toList, set.Moved c ∧ c.kind = kind ∧
            row.record.line = startLine (set.pieces (Text.lines text)) c.line := by
  rw [MarksRight, List.forall_mem_map, List.forall_mem_map]
  refine forall₂_congr fun r classified => forall_congr' fun kind => ?_
  rw [orderly.marked_iff (numbered r classified)]
  dsimp only [Pending.rowOf]
  -- A change that is not moved has its number and its start on one row, and no other has either
  -- there.
  by_cases still : ∃ c ∈ set.toList, ¬ set.Moved c ∧ c.kind = kind ∧ r.line = c.line + 1
  · obtain ⟨c, member, still, same, here⟩ := still
    have there := here.trans ((orderly.startLine_eq_iff text member).2 still).symm
    refine iff_of_true (iff_of_true ⟨c, member, same, here⟩ ⟨c, member, same, there⟩)
      (iff_of_false ?_ ?_)
    · rintro ⟨other, listed, moved, -, number⟩
      exact still (orderly.eq_of_line member listed (by omega) ▸ moved)
    · rintro ⟨other, listed, moved, -, start⟩
      exact still (orderly.eq_of_startLine text member listed (start.symm.trans there) ▸ moved)
  · have moved {c : Change} (member : c ∈ set.toList) (same : c.kind = kind)
        (here : r.line = c.line + 1 ∨ r.line = startLine (set.pieces (Text.lines text)) c.line) :
        set.Moved c := by
      by_contra unmoved
      have start := (orderly.startLine_eq_iff text member).2 unmoved
      exact still ⟨c, member, unmoved, same, by omega⟩
    refine iff_congr ?_ ?_
    · exact exists_congr fun c => and_congr_right fun member =>
        ⟨fun ⟨same, here⟩ => ⟨moved member same (.inl here), same, here⟩, And.right⟩
    · exact exists_congr fun c => and_congr_right fun member =>
        ⟨fun ⟨same, here⟩ => ⟨moved member same (.inr here), same, here⟩, And.right⟩

theorem Orderly.marksRight (orderly : set.Orderly) (lineForLine : set.LineForLine) (text : String)
    (numbered : ∀ r ∈ records, 0 < r.line) :
    set.MarksRight (Text.lines text) (records.map (Pending.rowOf (some set))) := by
  rw [orderly.marksRight_iff text numbered]
  have still := lineForLine_iff.1 lineForLine
  exact fun row _ kind => iff_of_false (fun ⟨c, member, moved, _⟩ => still c member moved)
    fun ⟨c, member, moved, _⟩ => still c member moved

-- A change that puts in more lines moves the text of the last change below the line that is
-- marked for it.
theorem Orderly.lineForLine (orderly : set.Orderly) (numbered : ∀ r ∈ records, 0 < r.line)
    (everywhere : ∀ line, 0 < line →
      line ≤ Text.lineCount (String.join (set.pieces (Text.lines text))) →
      ∃ r ∈ records, r.line = line)
    (right : set.MarksRight (Text.lines text) (records.map (Pending.rowOf (some set)))) :
    set.LineForLine := by
  intro c member later listed below
  obtain ⟨last, final, _, most⟩ := orderly.exists_last member
  have least := (orderly.startLine_change text final).1
  obtain ⟨r, classified, here⟩ := everywhere _ (by omega) (orderly.startLine_le text final)
  have marked := (right _ (List.mem_map_of_mem classified) last.kind).2 ⟨last, final, rfl, here⟩
  rw [orderly.marked_iff (numbered r classified)] at marked
  -- The mark belongs to a change at this row or below, and none is below the last one.
  obtain ⟨other, among, _, place⟩ := marked
  have bound := most other among
  have start : startLine (set.pieces (Text.lines text)) last.line = last.line + 1 := by omega
  have above : c.line < last.line := Nat.lt_of_lt_of_le below (most later listed)
  exact Decidable.byContradiction fun more =>
    (orderly.startLine_eq_iff text final).1 start ⟨c, member, above, more⟩

end Rows

end ChangeSet

namespace Session

theorem display_marks [Python.Grammar] {s : Session} (reachable : s.pending.Reachable) {d : Disk}
    {path : Path} {text : String} (read : d.readText path = .ok text) :
    ∃ rows, (s.display d path).1 = .ok rows ∧
      match s.pending.get? path with
      | none => ∀ row ∈ rows, row.pending = none
      | some set =>
        (∀ row ∈ rows, ∀ kind, row.pending = some kind ↔
          ∃ c ∈ set.toList, c.kind = kind ∧ row.record.line = c.line + 1) ∧
        (set.LineForLine → set.MarksRight (Text.lines text) rows) ∧
        (set.MarksRight (Text.lines text) rows ↔ ∀ row ∈ rows, ∀ kind,
          (∃ c ∈ set.toList, set.Moved c ∧ c.kind = kind ∧ row.record.line = c.line + 1) ↔
            ∃ c ∈ set.toList, set.Moved c ∧ c.kind = kind ∧
              row.record.line = startLine (set.pieces (Text.lines text)) c.line) ∧
        ((s.registry.lookUpPath path).1.isDense = true →
          (set.MarksRight (Text.lines text) rows ↔ set.LineForLine)) := by
  cases found : s.pending.get? path with
  | none =>
      refine ⟨_, congrArg Prod.fst (display_settled found read), fun row shown => ?_⟩
      obtain ⟨r, _, rfl⟩ := List.mem_map.1 shown
      rfl
  | some set =>
      have orderly := set.recorded_iff_orderly.1 (reachable.recorded found)
      let language := (s.registry.lookUpPath path).1
      let source := String.join (set.pieces (Text.lines text))
      have numbered : ∀ r ∈ language.classifyAs path source, 0 < r.line := fun r member =>
        (language.line_of_mem_classifyAs path member).1
      refine ⟨_, congrArg Prod.fst (display_pending found read), ?_,
        fun lineForLine => orderly.marksRight lineForLine text numbered,
        orderly.marksRight_iff text numbered,
        fun dense => ⟨fun right => ?_, fun lineForLine =>
          orderly.marksRight lineForLine text numbered⟩⟩
      · intro row shown kind
        obtain ⟨r, classified, rfl⟩ := List.mem_map.1 shown
        exact orderly.marked_iff (numbered r classified) kind
      · refine orderly.lineForLine numbered (fun line positive within => ?_) right
        exact Language.exists_mem_classifyAs dense path positive within

def page : Disk :=
  ⟨⟨.ofList [(["a.txt"], .file (.text "a\nb\n") false)], by decide +kernel⟩, [], ⟨""⟩⟩

def paging (text : String) : Session where
  root := ⟨""⟩
  settings := .default
  registry := .empty
  pending := (Pending.runCalls .empty
    [(page, .edit ⟨"a.txt"⟩ 0 none text), (page, .delete ⟨"a.txt"⟩ 1 none)]).2

theorem display_marks_page :
    (paging "x").pending.Reachable ∧ page.readText ⟨"a.txt"⟩ = .ok "a\nb\n" ∧
    ∃ set rows, (paging "x").pending.get? ⟨"a.txt"⟩ = some set ∧ set.LineForLine ∧
      ((paging "x").display page ⟨"a.txt"⟩).1 = .ok rows ∧
      set.MarksRight ["a\n", "b\n"] rows := by
  have reachable : (paging "x").pending.Reachable := ⟨_, rfl⟩
  have read : page.readText ⟨"a.txt"⟩ = .ok "a\nb\n" := rfl
  refine ⟨reachable, read, ?_⟩
  obtain ⟨rows, shown, marks⟩ := display_marks reachable read
  have lineForLine : ∀ set, (paging "x").pending.get? ⟨"a.txt"⟩ = some set → set.LineForLine := by
    intro set found
    cases found
    decide
  cases found : (paging "x").pending.get? ⟨"a.txt"⟩ with
  | none => cases found
  | some set =>
      rw [found] at marks
      exact ⟨set, rows, rfl, lineForLine set found, shown, marks.2.1 (lineForLine set found)⟩

theorem display_marks_drift :
    ∃ set, (paging "x\ny").pending.get? ⟨"a.txt"⟩ = some set ∧
      ∃ rows, ((paging "x\ny").display page ⟨"a.txt"⟩).1 = .ok rows ∧
        rows.map (fun row => (row.record.line, row.record.text, row.pending)) =
          [(1, "x", some .edit), (2, "y", some .delete), (3, "", none)] ∧
        ¬ set.MarksRight ["a\n", "b\n"] rows := by
  refine ⟨_, rfl, _, rfl, by decide, fun right => ?_⟩
  have marked := (right ⟨⟨"a.txt:2", 2, none, none, "y"⟩, some .delete⟩ (by decide) .delete).1 rfl
  revert marked
  decide

end Session

end LineLedger
