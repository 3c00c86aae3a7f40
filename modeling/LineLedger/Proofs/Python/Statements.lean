import LineLedger.Proofs.Python.Outline
import LineLedger.Proofs.Scan.Records
import LineLedger.Python.Parse

set_option autoImplicit false

namespace LineLedger

section Rows

variable {α : Type} (row : α → Nat)

theorem split_last_row {items : List α} {last : Nat} (within : ∀ a ∈ items, row a ≤ last)
    (ascending : items.Pairwise fun a b => row a ≤ row b) :
    items = items.filter (row · < last) ++ items.filter (row · = last) := by
  induction items with
  | nil => rfl
  | cons a rest ih =>
    have ⟨here, below⟩ := List.forall_mem_cons.1 within
    have ⟨least, later⟩ := List.pairwise_cons.1 ascending
    by_cases low : row a < last
    · have other : row a ≠ last := Nat.ne_of_lt low
      simpa [low, other] using ih below later
    · have top : ∀ b ∈ a :: rest, row b = last := by
        intro b member
        rcases List.mem_cons.1 member with rfl | inside
        · omega
        · have up := least b inside
          have down := below b inside
          omega
      have none : (a :: rest).filter (row · < last) = [] :=
        List.filter_eq_nil_iff.2 fun b member => by simp [top b member]
      have all : (a :: rest).filter (row · = last) = a :: rest :=
        List.filter_eq_self.2 fun b member => by simp [top b member]
      rw [none, all, List.nil_append]

theorem eq_flatMap_rows {items : List α} {bound : Nat} (within : ∀ a ∈ items, row a < bound)
    (ascending : items.Pairwise fun a b => row a ≤ row b) :
    items = (List.range bound).flatMap fun k => items.filter (row · = k) := by
  induction bound generalizing items with
  | zero =>
    cases items with
    | nil => rfl
    | cons a rest => exact absurd (within a (List.mem_cons_self ..)) (Nat.not_lt_zero _)
  | succ bound ih =>
    have split := split_last_row row (fun a member => Nat.le_of_lt_succ (within a member)) ascending
    have lower := @ih (items.filter (row · < bound)) (by simp)
      (ascending.sublist List.filter_sublist)
    have same : ∀ k ∈ List.range bound,
        (items.filter (row · < bound)).filter (row · = k) = items.filter (row · = k) := by
      intro k listed
      rw [List.filter_filter]
      refine List.filter_congr fun a _ => ?_
      have below := List.mem_range.1 listed
      by_cases here : row a = k <;> simp [here, below]
    rw [List.flatMap_def, List.map_congr_left same, ← List.flatMap_def] at lower
    rw [List.range_succ, List.flatMap_append, List.flatMap_singleton, ← lower]
    exact split

theorem mergeSort_eq_flatMap {items : List α} {bound : Nat} (within : ∀ a ∈ items, row a < bound) :
    items.mergeSort (fun a b => row a ≤ row b) =
      (List.range bound).flatMap fun k => items.filter (row · = k) := by
  let sorted := items.mergeSort fun a b => row a ≤ row b
  have total (a b : α) : (decide (row a ≤ row b) || decide (row b ≤ row a)) = true := by
    simp only [Bool.or_eq_true, decide_eq_true_eq]
    exact Nat.le_total _ _
  have trans (a b c : α) (first : decide (row a ≤ row b) = true)
      (second : decide (row b ≤ row c) = true) : decide (row a ≤ row c) = true :=
    decide_eq_true (Nat.le_trans (of_decide_eq_true first) (of_decide_eq_true second))
  have same : sorted.Perm items := List.mergeSort_perm items _
  have ascending : sorted.Pairwise fun a b => row a ≤ row b :=
    (List.pairwise_mergeSort trans total items).imp of_decide_eq_true
  have kept (k : Nat) : sorted.filter (row · = k) = items.filter (row · = k) := by
    have level : (items.filter (row · = k)).Pairwise fun a b => decide (row a ≤ row b) = true := by
      refine List.Pairwise.imp_of_mem ?_ (List.pairwise_of_forall fun _ _ => trivial)
      intro a b first second _
      have here : row a = k := of_decide_eq_true (List.mem_filter.1 first).2
      have there : row b = k := of_decide_eq_true (List.mem_filter.1 second).2
      exact decide_eq_true (by omega)
    have inside := (List.sublist_mergeSort trans total level List.filter_sublist).filter (row · = k)
    rw [List.filter_filter] at inside
    simp only [Bool.and_self] at inside
    exact (inside.eq_of_length (same.filter _).length_eq.symm).symm
  have made := eq_flatMap_rows row (fun a member => within a (same.mem_iff.1 member)) ascending
  simp only [kept] at made
  exact made

end Rows

namespace Text

theorem dropEndWhile_append_kept {test : Char → Bool} {after : List Char}
    (kept : dropEndWhile test after ≠ []) (text : List Char) :
    dropEndWhile test (text ++ after) = text ++ dropEndWhile test after := by
  induction text with
  | nil => rfl
  | cons c rest ih =>
    rw [List.cons_append, dropEndWhile_cons, ih]
    simp [kept]

theorem trim_append_visible (front rest : List Char) {c : Char} (visible : isBlank c = false) :
    ∃ more, trim (front ++ c :: rest) = trimStart front ++ c :: more := by
  have kept : ∃ more, dropEndWhile isBlank (c :: rest) = c :: more := by
    rw [dropEndWhile_cons, visible, Bool.and_false]
    exact ⟨_, rfl⟩
  obtain ⟨more, kept⟩ := kept
  have start : trimStart (front ++ c :: rest) = trimStart front ++ c :: rest := by
    rw [trimStart, List.dropWhile_append, List.dropWhile_cons_of_neg (by simp [visible])]
    split
    · rename_i none
      rw [trimStart, List.isEmpty_iff.1 none, List.nil_append]
    · rfl
  refine ⟨more, ?_⟩
  rw [trim, start, trimEnd, dropEndWhile_append_kept (by simp [kept]), kept]

def lineOf (source : String) (row : Nat) : List Char :=
  chomp (((lines source)[row]?).getD "").toList

theorem numberedLines_eq_range (source : String) :
    numberedLines source.toList =
      (List.range (lineCount source)).map fun row => (row + 1, lineOf source row) := by
  have length : (numberedLines source.toList).length = lineCount source := by
    rw [lineCount, lines, List.length_map, numberedLines]
    simp
  refine List.ext_getElem? fun row => ?_
  by_cases within : row < lineCount source
  · have present : (lines source)[row]? = some (lines source)[row] := List.getElem?_eq_getElem within
    rw [getElem?_numberedLines present, List.getElem?_map, List.getElem?_range within]
    simp only [Option.map_some, lineOf, present, Option.getD_some]
  · rw [List.getElem?_eq_none (by omega), List.getElem?_eq_none (by simp; omega)]

end Text

namespace Python

def StatementKind.all : List StatementKind := [
  .function true, .function false, .classDefinition, .decorator, .returnStatement,
  .deleteStatement, .expression, .assignment, .annotated, .augmentedAssignment, .forLoop,
  .whileLoop, .conditional, .withBlock, .raiseStatement, .tryBlock, .assertStatement,
  .importStatement, .importFrom, .globalStatement, .nonlocalStatement, .passStatement,
  .breakStatement, .continueStatement]

def tagStart (name : String) : List Char := ("cs(" ++ name ++ ", ").toList

theorem tagStart_isPrefix_tagText (name : String) (level : Nat) :
    tagStart name <+: (tagText name level).toList := by
  rw [tagText, String.append_assoc, String.toList_append]
  exact List.prefix_append _ _

def isStatementTag (tag : String) : Bool :=
  StatementKind.all.any fun kind => (tagStart kind.code).isPrefixOf tag.toList

theorem StatementKind.mem_all (kind : StatementKind) : kind ∈ all := by
  cases kind with
  | function isAsync => cases isAsync <;> decide
  | _ => decide

theorem isStatementTag_found (f : Found) : isStatementTag f.text = true :=
  List.any_eq_true.2
    ⟨f.kind, f.kind.mem_all,
      List.isPrefixOf_iff_prefix.2 (tagStart_isPrefix_tagText f.kind.code f.level)⟩

theorem isStatementTag_other {name : String} (other : name ∈ ["unknown", "cont"]) (level : Nat) :
    isStatementTag (tagText name level) = false := by
  have apart : ∀ kind ∈ StatementKind.all, ∀ name ∈ ["unknown", "cont"],
      ¬ tagStart kind.code <+: tagStart name ∧ ¬ tagStart name <+: tagStart kind.code := by
    decide +kernel
  rw [isStatementTag, List.any_eq_false]
  intro kind listed found
  have ⟨shorter, longer⟩ := apart kind listed name other
  rw [List.isPrefixOf_iff_prefix] at found
  rcases List.prefix_or_prefix_of_prefix found (tagStart_isPrefix_tagText name level) with here | there
  · exact shorter here
  · exact longer there

def statementMarks (o : Outline) (line : Nat × List Char) : List Mark :=
  if isSilent line.2 then []
  else (o.foundAt (line.1 - 1)).map fun f => ⟨line.1, some f.text, line.2⟩

theorem filter_marks (o : Outline) (level : Nat) (numbered : List (Nat × List Char)) :
    (marks o level numbered).filter (·.tag.any isStatementTag) =
      numbered.flatMap (statementMarks o) := by
  induction numbered generalizing level with
  | nil => rfl
  | cons head rest ih =>
    obtain ⟨number, line⟩ := head
    rw [marks, List.flatMap_cons, statementMarks]
    by_cases silent : isSilent line = true
    · rw [if_pos silent, if_pos silent, ih]
      rfl
    · rw [if_neg silent, if_neg silent, Outline.foundAt]
      cases o.rows.get? (number - 1) with
      | some found =>
        have all : ∀ m ∈ found.map (fun f => (⟨number, some f.text, line⟩ : Mark)),
            m.tag.any isStatementTag = true := by
          intro m member
          obtain ⟨f, -, rfl⟩ := List.mem_map.1 member
          exact isStatementTag_found f
        rw [List.filter_append, List.filter_eq_self.2 all, ih]
        rfl
      | none =>
        have other : (if o.isError (number - 1) = true then "unknown" else "cont") ∈
            ["unknown", "cont"] := by split <;> simp
        rw [List.filter_cons_of_neg, ih]
        · rfl
        · simp [isStatementTag_other other]

def startsToken (source : String) (p : Position) : Bool :=
  match (Text.lines source)[p.row]? with
  | none => false
  | some line => line.toList[p.column]?.any fun c => !Text.isBlank c && c ≠ '#'

def isHidden (source : String) (p : Position) : Bool :=
  match (Text.lines source)[p.row]? with
  | none => false
  | some line => (Text.trimStart (line.toList.take p.column)).head? = some '#'

theorem isSilent_lineOf {source : String} {p : Position} (starts : startsToken source p = true) :
    p.row < Text.lineCount source ∧
      isSilent (Text.lineOf source p.row) = isHidden source p := by
  rw [startsToken] at starts
  cases present : (Text.lines source)[p.row]? with
  | none => simp [present] at starts
  | some line =>
    rw [present] at starts
    refine ⟨(List.getElem?_eq_some_iff.1 present).1, ?_⟩
    obtain ⟨c, here, visible, other⟩ : ∃ c, line.toList[p.column]? = some c ∧
        Text.isBlank c = false ∧ c ≠ '#' := by
      simpa [Option.any_eq_true] using starts
    obtain ⟨within, at_⟩ := List.getElem?_eq_some_iff.1 here
    have split : line.toList =
        line.toList.take p.column ++ c :: line.toList.drop (p.column + 1) := by
      rw [← at_, List.getElem_cons_drop, List.take_append_drop]
    obtain ⟨more, trimmed⟩ := Text.trim_append_visible (line.toList.take p.column)
      (line.toList.drop (p.column + 1)) visible
    rw [← split] at trimmed
    rw [Bool.eq_iff_iff, isSilent_iff, isHidden, Text.lineOf, present, Option.getD_some,
      Text.trim_chomp, trimmed, decide_eq_true_eq]
    cases Text.trimStart (line.toList.take p.column) with
    | nil => simp [other]
    | cons d rest => simp

def Statement.record (name : String) (extension : Option String) (source : String)
    (s : Statement) : Record :=
  Record.make name (s.start.row + 1) extension (some s.found.text)
    (String.ofList (Text.lineOf source s.start.row))

def recordsByRow (name : String) (extension : Option String) (source : String)
    (statements : List Statement) : List Record :=
  (statements.mergeSort fun a b => a.start.row ≤ b.start.row).map
    (Statement.record name extension source)

section Records

variable {source : String} {t : Tree}
  (proper : ∀ s ∈ t.statements, startsToken source s.start = true)

include proper

theorem statementMarks_row (row : Nat) :
    statementMarks (outline t) (row + 1, Text.lineOf source row) =
      ((t.statements.filter fun s => !isHidden source s.start).filter (·.start.row = row)).map
        fun s => ⟨s.start.row + 1, some s.found.text, Text.lineOf source s.start.row⟩ := by
  have hidden : ∀ s ∈ t.statements, s.start.row = row →
      isHidden source s.start = isSilent (Text.lineOf source row) := by
    rintro s member rfl
    exact (isSilent_lineOf (proper s member)).2.symm
  rw [statementMarks, Nat.add_sub_cancel, foundAt_outline]
  -- A line is silent as a whole: all the statements that start on it are hidden, or none is.
  cases silent : isSilent (Text.lineOf source row) with
  | true =>
    have none : (t.statements.filter fun s => !isHidden source s.start).filter
        (·.start.row = row) = [] := by
      refine List.filter_eq_nil_iff.2 fun s member => ?_
      obtain ⟨listed, shown⟩ := List.mem_filter.1 member
      simp only [decide_eq_true_eq]
      intro here
      rw [hidden s listed here, silent] at shown
      cases shown
    rw [none]
    rfl
  | false =>
    have same : (t.statements.filter fun s => !isHidden source s.start).filter
        (·.start.row = row) = t.statements.filter (·.start.row = row) := by
      rw [List.filter_filter]
      refine List.filter_congr fun s listed => ?_
      by_cases here : s.start.row = row
      · simp [here, hidden s listed here, silent]
      · simp [here]
    rw [same, if_neg Bool.false_ne_true, List.map_map]
    refine List.map_congr_left fun s member => ?_
    have here : s.start.row = row := of_decide_eq_true (List.mem_filter.1 member).2
    simp [here]

theorem filter_scanTree :
    (scanTree t source.toList).filter (·.tag.any isStatementTag) =
      ((t.statements.filter fun s => !isHidden source s.start).mergeSort
        fun a b => a.start.row ≤ b.start.row).map fun s =>
          ⟨s.start.row + 1, some s.found.text, Text.lineOf source s.start.row⟩ := by
  have within : ∀ s ∈ t.statements.filter fun s => !isHidden source s.start,
      s.start.row < Text.lineCount source := fun s member =>
    (isSilent_lineOf (proper s (List.mem_filter.1 member).1)).1
  rw [mergeSort_eq_flatMap (fun s : Statement => s.start.row) within, scanTree, filter_marks,
    Text.numberedLines_eq_range, List.flatMap_map, List.map_flatMap]
  simp only [statementMarks_row proper]

-- The statements that no hash sign hides have one record each, in the order of their rows and, on a
-- row, in document order; the others have none. So all statements have theirs if none is hidden,
-- and only then.
theorem statements_recorded (name : String) (extension : Option String) :
    let records := ((scanTree t source.toList).map (Mark.toRecord name extension)).filter
      (·.tag.any isStatementTag)
    records = recordsByRow name extension source
      (t.statements.filter fun s => !isHidden source s.start) ∧
    (records = recordsByRow name extension source t.statements ↔
      ∀ s ∈ t.statements, isHidden source s.start = false) := by
  intro records
  have shown : records = recordsByRow name extension source
      (t.statements.filter fun s => !isHidden source s.start) :=
    calc records
      _ = ((scanTree t source.toList).filter (·.tag.any isStatementTag)).map
          (Mark.toRecord name extension) := List.filter_map
      _ = _ := by
        rw [filter_scanTree proper, List.map_map]
        rfl
  refine ⟨shown, fun all => ?_, fun none => ?_⟩
  · have counts : (t.statements.filter fun s => !isHidden source s.start).length =
        t.statements.length := by
      simpa [recordsByRow] using congrArg List.length (shown.symm.trans all)
    simpa using List.length_filter_eq_length_iff.1 counts
  · rw [shown, List.filter_eq_self.2 (by simpa using none)]

end Records

-- Three statements share a row; the last of the next row stands behind the end of a quoted text.
def inlined : String := "class A:\n    def f(self): return 1; x = \"\"\"\n\"\"\"; y = 2; pass\n"

theorem statements_recorded_inlined :
    (∀ s ∈ (parse inlined.toList).statements, startsToken inlined s.start = true) ∧
    ((((scanTree (parse inlined.toList) inlined.toList).map (Mark.toRecord "a.py" none)).filter
      (·.tag.any isStatementTag)).map fun r => (r.line, r.tag)) =
        [(1, some "cs(c, 1)"), (2, some "cs(f, 2)"), (2, some "cs(r, 2)"), (2, some "cs(a, 2)"),
          (3, some "cs(a, 2)"), (3, some "cs(p, 2)")] := by
  have statements : (parse inlined.toList).statements =
      [⟨⟨0, 0⟩, ⟨.classDefinition, 1⟩⟩, ⟨⟨1, 4⟩, ⟨.function false, 2⟩⟩,
        ⟨⟨1, 17⟩, ⟨.returnStatement, 2⟩⟩, ⟨⟨1, 27⟩, ⟨.assignment, 2⟩⟩,
        ⟨⟨2, 5⟩, ⟨.assignment, 2⟩⟩, ⟨⟨2, 12⟩, ⟨.passStatement, 2⟩⟩] := by
    unfold inlined
    rw [String.toList_ofList]
    decide +kernel
  have proper : ∀ s ∈ (parse inlined.toList).statements, startsToken inlined s.start = true := by
    rw [statements]
    decide +kernel
  have visible : ∀ s ∈ (parse inlined.toList).statements, isHidden inlined s.start = false := by
    rw [statements]
    decide +kernel
  obtain ⟨-, complete⟩ := statements_recorded proper "a.py" none
  refine ⟨proper, ?_⟩
  rw [complete.2 visible, statements, recordsByRow, List.mergeSort_of_pairwise (by decide)]
  decide +kernel

-- The hash sign belongs to the text that is quoted, yet the row is taken for a comment.
def concealed : String := "x = \"\"\"\n# \"\"\"; y = 1\n"

theorem statements_recorded_concealed :
    let t := parse concealed.toList
    (∀ s ∈ t.statements, startsToken concealed s.start = true) ∧
    ⟨⟨1, 7⟩, ⟨.assignment, 0⟩⟩ ∈ t.statements ∧
    (Language.python.classify "a.py" none concealed).filter (·.line = 2) = [] := by
  decide +kernel

end Python

end LineLedger
