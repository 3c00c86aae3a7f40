import LineLedger.Classification
import LineLedger.Proofs.Text.Lines

set_option autoImplicit false

namespace LineLedger

namespace Mark

def onLines (numbered : List (Nat × List Char)) (tags : List (List (Option String))) : List Mark :=
  (numbered.zip tags).flatMap fun (line, tags) => tags.map (⟨line.1, ·, line.2⟩)

theorem onLines_cons (line : Nat × List Char) (numbered : List (Nat × List Char))
    (tags : List (Option String)) (more : List (List (Option String))) :
    onLines (line :: numbered) (tags :: more) =
      tags.map (⟨line.1, ·, line.2⟩) ++ onLines numbered more := rfl

section OnLines

variable {numbered : List (Nat × List Char)} {tags : List (List (Option String))}

theorem mem_onLines {m : Mark} (member : m ∈ onLines numbered tags) :
    (m.line, m.text) ∈ numbered := by
  obtain ⟨⟨line, own⟩, listed, here⟩ := List.mem_flatMap.1 member
  obtain ⟨tag, _, rfl⟩ := List.mem_map.1 here
  exact (List.of_mem_zip listed).1

theorem ordered_onLines (ascending : numbered.Pairwise fun a b => a.1 < b.1)
    (tags : List (List (Option String))) :
    (onLines numbered tags).Pairwise fun a b => a.line ≤ b.line := by
  induction numbered generalizing tags with
  | nil => exact .nil
  | cons line rest ih =>
      cases tags with
      | nil => exact .nil
      | cons own more =>
          have ⟨below, later⟩ := List.pairwise_cons.1 ascending
          rw [onLines_cons, List.pairwise_append]
          refine ⟨?_, ih later more, ?_⟩
          · rw [List.pairwise_map]
            exact List.pairwise_of_forall fun _ _ => Nat.le_refl _
          · intro a here b there
            obtain ⟨tag, _, rfl⟩ := List.mem_map.1 here
            exact Nat.le_of_lt (below _ (mem_onLines there))

theorem filter_onLines (ascending : numbered.Pairwise fun a b => a.1 < b.1) {place number : Nat}
    {text : List Char} {own : List (Option String)} (line : numbered[place]? = some (number, text))
    (tagged : tags[place]? = some own) :
    (onLines numbered tags).filter (·.line = number) = own.map (⟨number, ·, text⟩) := by
  induction place generalizing numbered tags with
  | zero =>
      obtain ⟨rest, rfl⟩ := List.head?_eq_some_iff.1 (List.head?_eq_getElem?.trans line)
      obtain ⟨more, rfl⟩ := List.head?_eq_some_iff.1 (List.head?_eq_getElem?.trans tagged)
      have ⟨below, _⟩ := List.pairwise_cons.1 ascending
      have none : (onLines rest more).filter (·.line = number) = [] := by
        refine List.filter_eq_nil_iff.2 fun m member same => ?_
        have later := below _ (mem_onLines member)
        simp only [decide_eq_true_eq] at same
        omega
      rw [onLines_cons, List.filter_append, none, List.append_nil]
      exact List.filter_eq_self.2 fun m member => by
        obtain ⟨tag, _, rfl⟩ := List.mem_map.1 member
        exact decide_eq_true rfl
  | succ below ih =>
      cases numbered with
      | nil => cases line
      | cons head rest =>
          cases tags with
          | nil => cases tagged
          | cons first more =>
              have ⟨before, later⟩ := List.pairwise_cons.1 ascending
              have passed :
                  (first.map (Mark.mk head.1 · head.2)).filter (·.line = number) = [] := by
                refine List.filter_eq_nil_iff.2 fun m member same => ?_
                obtain ⟨tag, _, rfl⟩ := List.mem_map.1 member
                have apart := before _ (List.mem_of_getElem? line)
                simp only [decide_eq_true_eq] at same
                omega
              rw [onLines_cons, List.filter_append, passed, List.nil_append]
              exact ih later line tagged

theorem lines_onLines (length : tags.length = numbered.length)
    (single : ∀ own ∈ tags, own.length = 1) :
    (onLines numbered tags).map Mark.line = numbered.map Prod.fst := by
  induction numbered generalizing tags with
  | nil => rfl
  | cons line rest ih =>
      cases tags with
      | nil => cases length
      | cons own more =>
          have ⟨here, later⟩ := List.forall_mem_cons.1 single
          obtain ⟨tag, rfl⟩ := List.length_eq_one_iff.1 here
          rw [onLines_cons, List.map_append, ih (Nat.succ.inj length) later]
          rfl

end OnLines

-- Which tags stand on which lines does not depend on the texts of the lines.
theorem places_onLines (numbered : List (Nat × List Char)) (tags : List (List (Option String))) :
    (onLines numbered tags).map (fun m => (m.line, m.tag)) =
      ((numbered.map Prod.fst).zip tags).flatMap fun (number, own) => own.map (number, ·) := by
  induction numbered generalizing tags with
  | nil => rfl
  | cons line rest ih =>
      cases tags with
      | nil => rfl
      | cons own more =>
          rw [onLines_cons, List.map_append, ih, List.map_map]
          rfl

end Mark

namespace Scanner

variable {σ : Type} (scanner : Scanner σ)

def tags : σ → List (List Char) → List (List (Option String))
  | _, [] => []
  | state, line :: rest =>
    let (own, next) := scanner.step state line
    own :: tags next rest

theorem tags_cons (state : σ) (line : List Char) (rest : List (List Char)) :
    scanner.tags state (line :: rest) =
      (scanner.step state line).1 :: scanner.tags (scanner.step state line).2 rest := rfl

theorem run_invariant {P : σ → Prop}
    (preserved : ∀ state line, P state → P (scanner.step state line).2) {state : σ}
    (holds : P state) (numbered : List (Nat × List Char)) :
    P (scanner.run state numbered).2 := by
  induction numbered generalizing state with
  | nil => exact holds
  | cons line rest ih => exact ih (preserved state line.2 holds)

theorem marks_run (state : σ) (numbered : List (Nat × List Char)) :
    (scanner.run state numbered).1 =
      Mark.onLines numbered (scanner.tags state (numbered.map Prod.snd)) := by
  induction numbered generalizing state with
  | nil => rfl
  | cons line rest ih => exact congrArg _ (ih (scanner.step state line.2).2)

theorem length_tags (state : σ) (lines : List (List Char)) :
    (scanner.tags state lines).length = lines.length := by
  induction lines generalizing state with
  | nil => rfl
  | cons line rest ih =>
      rw [tags, List.length_cons, ih, List.length_cons]

theorem tags_map {change : List Char → List Char}
    (same : ∀ state line, scanner.step state (change line) = scanner.step state line) (state : σ)
    (lines : List (List Char)) :
    scanner.tags state (lines.map change) = scanner.tags state lines := by
  induction lines generalizing state with
  | nil => rfl
  | cons line rest ih => simp only [List.map_cons, tags, same, ih]

theorem places_scan (chomps : ∀ state line,
    scanner.step state (Text.chomp line) = scanner.step state line) (source : List Char) :
    (scanner.scan source).map (fun m => (m.line, m.tag)) =
      ((List.range' 1 (Text.splitLines source).length).zip
        (scanner.tags scanner.start (Text.splitLines source))).flatMap
        fun (number, own) => own.map (number, ·) := by
  rw [scan, scanner.marks_run, Mark.places_onLines, Text.numbers_numberedLines,
    Text.texts_numberedLines, scanner.tags_map chomps]

theorem single_tags (single : ∀ state line, (scanner.step state line).1.length = 1) (state : σ)
    (lines : List (List Char)) : ∀ own ∈ scanner.tags state lines, own.length = 1 := by
  induction lines generalizing state with
  | nil => exact fun own member => nomatch member
  | cons line rest ih =>
      rw [tags]
      exact List.forall_mem_cons.2 ⟨single state line, ih _⟩

end Scanner

namespace Python

def tags (o : Outline) : Nat → List (Nat × List Char) → List (List (Option String))
  | _, [] => []
  | level, (number, line) :: rest =>
    if isSilent line then [] :: tags o level rest
    else
      match o.rows.get? (number - 1) with
      | some found => found.map (fun f => some f.text) :: tags o (lastLevel level found) rest
      | none =>
        let name := if o.isError (number - 1) then "unknown" else "cont"
        [some (tagText name level)] :: tags o level rest

theorem marks_eq (o : Outline) (level : Nat) (numbered : List (Nat × List Char)) :
    marks o level numbered = Mark.onLines numbered (tags o level numbered) := by
  induction numbered generalizing level with
  | nil => rfl
  | cons head rest ih =>
      obtain ⟨number, line⟩ := head
      rw [marks, tags]
      by_cases silent : isSilent line = true
      · rw [if_pos silent, if_pos silent, ih]
        rfl
      · rw [if_neg silent, if_neg silent]
        cases o.rows.get? (number - 1) with
        | some found =>
            rw [Mark.onLines_cons, List.map_map, ← ih]
            rfl
        | none => exact congrArg _ (ih level)

variable [Grammar]

theorem scan_onLines (source : List Char) :
    ∃ tags, scan source = Mark.onLines (Text.numberedLines source) tags := by
  rw [scan]
  split <;> exact ⟨_, marks_eq _ 0 _⟩

end Python

namespace Language

variable [Python.Grammar]

def isDense : Language → Bool
  | .python | .lua => false
  | .c | .cpp | .pascal | .generic => true

theorem marks_onLines (language : Language) (source : List Char) :
    ∃ tags, language.marks source = Mark.onLines (Text.numberedLines source) tags ∧
      (language.isDense = true →
        tags.length = (Text.numberedLines source).length ∧ ∀ own ∈ tags, own.length = 1) := by
  have dense {σ : Type} (scanner : Scanner σ)
      (single : ∀ state line, (scanner.step state line).1.length = 1) :
      ∃ tags, scanner.scan source = Mark.onLines (Text.numberedLines source) tags ∧
        (language.isDense = true →
          tags.length = (Text.numberedLines source).length ∧ ∀ own ∈ tags, own.length = 1) :=
    ⟨_, scanner.marks_run _ _, fun _ =>
      ⟨(scanner.length_tags _ _).trans (List.length_map _), scanner.single_tags single _ _⟩⟩
  cases language with
  | python =>
      obtain ⟨tags, laid⟩ := Python.scan_onLines source
      exact ⟨tags, laid, fun dense => nomatch dense⟩
  | lua => exact ⟨_, Lua.scanner.marks_run _ _, fun dense => nomatch dense⟩
  | c => exact dense (Braces.scanner .c) fun _ _ => rfl
  | cpp => exact dense (Braces.scanner .cpp) fun _ _ => rfl
  | pascal => exact dense Pascal.scanner fun _ _ => rfl
  | generic => exact dense Plain.scanner fun _ _ => rfl

theorem lines_marks {language : Language} (dense : language.isDense = true) (source : List Char) :
    (language.marks source).map Mark.line = (Text.numberedLines source).map Prod.fst := by
  obtain ⟨tags, same, each⟩ := language.marks_onLines source
  obtain ⟨length, single⟩ := each dense
  rw [same, Mark.lines_onLines length single]

omit [Python.Grammar] in
theorem mem_numbers (source : String) (number : Nat) :
    number ∈ (Text.numberedLines source.toList).map Prod.fst ↔
      0 < number ∧ number ≤ Text.lineCount source := by
  rw [Text.numbers_numberedLines, List.mem_range'_1, Text.lineCount, Text.lines, List.length_map]
  omega

theorem line_of_mem_classifyAs (language : Language) (path : Path) {source : String} {r : Record}
    (member : r ∈ language.classifyAs path source) :
    0 < r.line ∧ r.line ≤ Text.lineCount source := by
  obtain ⟨m, marked, same⟩ := List.mem_map.1 member
  obtain ⟨tags, laid, _⟩ := language.marks_onLines source.toList
  rw [laid] at marked
  rw [← mem_numbers, ← same]
  exact List.mem_map_of_mem (Mark.mem_onLines marked)

theorem exists_mem_classifyAs {language : Language} (dense : language.isDense = true)
    (path : Path) {source : String} {line : Nat} (positive : 0 < line)
    (within : line ≤ Text.lineCount source) :
    ∃ r ∈ language.classifyAs path source, r.line = line := by
  have listed := (mem_numbers source line).2 ⟨positive, within⟩
  rw [← lines_marks dense] at listed
  obtain ⟨m, marked, same⟩ := List.mem_map.1 listed
  exact ⟨_, List.mem_map_of_mem marked, same⟩

end Language

end LineLedger
