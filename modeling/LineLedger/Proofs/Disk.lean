import Mathlib.Data.List.Induction
import LineLedger.Disk

set_option autoImplicit false

namespace LineLedger

theorem bind_eq_ok {ε α β : Type} {first : Except ε α} {next : α → Except ε β} {b : β} :
    (first >>= next) = .ok b ↔ ∃ a, first = .ok a ∧ next a = .ok b := by
  cases first <;> simp [bind, Except.bind]

theorem Path.pieces_ne_nil (text : List Char) : Path.pieces text ≠ [] := by
  cases text with
  | nil => simp [pieces]
  | cons c rest =>
      rw [pieces]
      split
      · simp
      · split <;> simp

theorem Path.pieces_append_slash (first second : List Char) :
    Path.pieces (first ++ '/' :: second) = Path.pieces first ++ Path.pieces second := by
  induction first with
  | nil => simp [pieces]
  | cons c rest ih =>
      rw [List.cons_append, pieces, pieces, ih]
      split
      · rfl
      · cases split : pieces rest with
        | nil => exact absurd split (pieces_ne_nil rest)
        | cons piece more => rfl

theorem Path.segments_ne_nil (p : Path) : p.segments ≠ [] := by
  simp [segments, pieces_ne_nil]

theorem Path.getLast?_segments {p : Path} (slash : Disk.endsInSlash p = true) :
    p.segments.getLast? = some "" := by
  have last : p.text.toList.getLast? = some '/' := by simpa [Disk.endsInSlash] using slash
  obtain ⟨before, text⟩ := List.getLast?_eq_some_iff.1 last
  rw [segments, text, pieces_append_slash]
  simp [pieces]

theorem Path.free_of_mem_pieces {text piece : List Char} (member : piece ∈ pieces text) :
    '/' ∉ piece := by
  induction text generalizing piece with
  | nil => simp_all [pieces]
  | cons c rest ih =>
      rw [pieces] at member
      split at member
      · rcases List.mem_cons.1 member with rfl | later
        · exact List.not_mem_nil
        · exact ih later
      · rename_i other
        split at member
        · rw [List.mem_singleton.1 member, List.mem_singleton]
          exact Ne.symm other
        · rename_i first more split
          rw [split] at ih
          rcases List.mem_cons.1 member with rfl | later
          · have free := ih (List.mem_cons_self ..)
            simp [free, Ne.symm other]
          · exact ih (List.mem_cons_of_mem _ later)

theorem Path.getLast?_pieces {text : List Char} (last : (pieces text).getLast? = some []) :
    text = [] ∨ text.getLast? = some '/' := by
  induction text with
  | nil => exact .inl rfl
  | cons c rest ih =>
      refine .inr ?_
      obtain ⟨piece, more, split⟩ := List.exists_cons_of_ne_nil (pieces_ne_nil rest)
      rw [pieces, split] at last
      by_cases slash : c = '/'
      · rw [if_pos slash, List.getLast?_cons_cons, ← split] at last
        rcases ih last with none | ends
        · simp [none, slash]
        · simp [List.getLast?_cons, ends]
      · rw [if_neg slash] at last
        cases more with
        | nil => simp at last
        | cons second further =>
            rw [List.getLast?_cons_cons, ← List.getLast?_cons_cons (a := piece), ← split] at last
            rcases ih last with none | ends
            · simp [none, pieces] at split
            · simp [List.getLast?_cons, ends]

namespace Disk

def Names (d : Disk) (p : Path) (name : FullName) : Prop :=
  ∃ content isLocked, d.find p = .ok (name, .file content isLocked)

def IsLocked (d : Disk) (p : Path) : Prop :=
  ∃ name content, d.find p = .ok (name, .file content true)

section Stands

variable {d : Disk} {name : FullName} {node : Node}

theorem around (found : d.node? name = some node) : d.node? name.dropLast = some .folder :=
  FileTree.around found

-- Nothing below a file, or below a name that is free, is a folder.
theorem not_folder_below (apart : d.node? name ≠ some .folder) (further : List String) :
    d.node? (name ++ further) ≠ some .folder := by
  induction further using List.reverseRecOn with
  | nil => rwa [List.append_nil]
  | append_singleton more last ih =>
      intro folder
      have parent := around folder
      rw [← List.append_assoc, List.dropLast_concat] at parent
      exact ih parent

theorem below_eq_nil (apart : d.node? name ≠ some .folder) : d.below name = [] := by
  refine List.filter_eq_nil_iff.2 fun (other, node) listed => ?_
  simp only [Bool.and_eq_true, decide_eq_true_eq, List.isPrefixOf_iff_prefix, not_and]
  rintro ⟨further, rfl⟩ longer
  have more : further ≠ [] := by
    rintro rfl
    exact longer (List.append_nil name)
  have parent := (d.tree.held _ listed).around
  rw [List.dropLast_append_of_ne_nil more] at parent
  exact not_folder_below apart _ parent

theorem ne_nil_of_not_folder (apart : d.node? name ≠ some .folder) : name ≠ [] := by
  rintro rfl
  exact apart rfl

end Stands

section Follow

variable {d : Disk}

theorem follow_append (here : FullName) (first second : List String) :
    d.follow here (first ++ second) =
      (d.follow here first).bind fun there => d.follow there second := by
  induction first generalizing here with
  | nil => rfl
  | cons segment rest ih =>
      rw [List.cons_append, follow, follow]
      split
      · rfl
      · rfl
      · split
        · exact ih here
        · split
          · exact ih here.dropLast
          · split
            · rfl
            · exact ih (here ++ [segment])

theorem follow_to_file {here name : FullName} {segment : String}
    {content : Content} {isLocked : Bool} (reached : d.follow here [segment] = .ok name)
    (file : d.node? name = some (.file content isLocked)) :
    d.node? here = some .folder ∧ (segment ≠ "" ∧ segment ≠ "." ∧ segment ≠ "..") ∧
      ¬ segment.utf8ByteSize > longestName ∧ name = here ++ [segment] := by
  rw [follow] at reached
  split at reached
  · cases reached
  · cases reached
  · rename_i folder
    split at reached
    · cases reached
      rw [folder] at file
      cases file
    · rename_i plain
      split at reached
      · cases reached
        rw [around folder] at file
        cases file
      · split at reached
        · cases reached
        · cases reached
          refine ⟨folder, ?_, ‹_›, rfl⟩
          simp_all

end Follow

theorem find_eq_ok_iff {d : Disk} {p : Path} {name : FullName} {node : Node} :
    d.find p = .ok (name, node) ↔ d.locate p = .ok name ∧ d.node? name = some node := by
  rw [find]
  cases d.locate p with
  | error fault => simp [bind, Except.bind]
  | ok other =>
      cases present : d.node? other <;> simp only [bind, Except.bind, present]
      · simp only [reduceCtorEq, Except.ok.injEq, false_iff, not_and]
        rintro rfl
        simp [present]
      · simp only [Except.ok.injEq, Prod.mk.injEq]
        constructor
        · rintro ⟨rfl, rfl⟩
          exact ⟨rfl, present⟩
        · rintro ⟨rfl, same⟩
          exact ⟨rfl, Option.some.inj (present.symm.trans same)⟩

theorem Names.located {d : Disk} {p : Path} {name : FullName} (names : d.Names p name) :
    d.locate p = .ok name := by
  obtain ⟨content, isLocked, found⟩ := names
  exact (find_eq_ok_iff.1 found).1

theorem locate_eq_ok_iff {d : Disk} {p : Path} {name : FullName} :
    d.locate p = .ok name ↔
      acceptSpelling p = .ok () ∧ d.follow (d.origin p) p.segments = .ok name := by
  rw [locate]
  cases acceptSpelling p <;> simp [bind, Except.bind]

theorem splitLast_append {before : List String} {last : String} (named : last ≠ "") :
    splitLast (before ++ [last]) = (before, last) := by
  simp [splitLast, named]

theorem openForWriting_eq {d : Disk} {p : Path} {name : FullName}
    {content : Content} {isLocked : Bool} (found : d.find p = .ok (name, .file content isLocked)) :
    d.openForWriting p = .ok (name, content, isLocked) := by
  obtain ⟨located, file⟩ := find_eq_ok_iff.1 found
  obtain ⟨accepted, reached⟩ := locate_eq_ok_iff.1 located
  obtain ⟨before, last, segments⟩ : ∃ before last, p.segments = before ++ [last] :=
    ⟨_, _, (List.dropLast_concat_getLast p.segments_ne_nil).symm⟩
  rw [segments, follow_append] at reached
  cases start : d.follow (d.origin p) before with
  | error fault => rw [start] at reached; cases reached
  | ok here =>
      rw [start] at reached
      obtain ⟨folder, ⟨named, single, double⟩, short, rfl⟩ := follow_to_file reached file
      have slash : endsInSlash p = false := by
        cases ends : endsInSlash p with
        | false => rfl
        | true =>
            have empty := Path.getLast?_segments ends
            rw [segments, List.getLast?_concat] at empty
            exact absurd (Option.some.inj empty) named
      have entry : d.entry p = .ok ⟨here, last⟩ := by
        simp [Disk.entry, accepted, segments, splitLast_append named, start, folder, bind,
          Except.bind]
      simp [openForWriting, entry, Entry.isNamed, named, single, double, slash, lookUp, short,
        Entry.fullName, file, bind, Except.bind]

theorem entry_eq_ok {d : Disk} {p : Path} {e : Entry} (entered : d.entry p = .ok e) :
    acceptSpelling p = .ok () ∧ d.follow (d.origin p) (splitLast p.segments).1 = .ok e.folder ∧
      d.node? e.folder = some .folder ∧ (splitLast p.segments).2 = e.name := by
  rw [entry, bind_eq_ok] at entered
  obtain ⟨_, accepted, entered⟩ := entered
  obtain ⟨folder, reached, entered⟩ := bind_eq_ok.1 entered
  split at entered
  · cases entered
  · cases entered
  · cases entered
    exact ⟨accepted, reached, ‹_›, rfl⟩

theorem lookUp_eq_ok {d : Disk} {e : Entry} {found : Option Node}
    (looked : d.lookUp e = .ok found) :
    ¬ e.name.utf8ByteSize > longestName ∧ d.node? e.fullName = found := by
  rw [lookUp] at looked
  split at looked
  · cases looked
  · rename_i short
    cases looked
    exact ⟨short, rfl⟩

theorem openForWriting_eq_ok {d : Disk} {p : Path} {name : FullName} {content : Content}
    {isLocked : Bool} (opened : d.openForWriting p = .ok (name, content, isLocked)) :
    ∃ e, d.entry p = .ok e ∧ e.isNamed = true ∧ endsInSlash p = false ∧
      ¬ e.name.utf8ByteSize > longestName ∧ d.node? e.fullName ≠ some .folder ∧
        name = e.fullName := by
  rw [openForWriting, bind_eq_ok] at opened
  obtain ⟨e, entered, opened⟩ := opened
  split at opened
  · cases opened
  · rename_i plain
    simp only [Bool.or_eq_true, Bool.not_eq_true', not_or, Bool.not_eq_false,
      Bool.not_eq_true] at plain
    obtain ⟨found, looked, opened⟩ := bind_eq_ok.1 opened
    obtain ⟨short, node⟩ := lookUp_eq_ok looked
    refine ⟨e, entered, plain.1, plain.2, short, ?_⟩
    rw [node]
    split at opened <;> cases opened <;> exact ⟨by simp, rfl⟩

theorem last_segment_ne_empty {p : Path} (accepted : acceptSpelling p = .ok ())
    (slash : endsInSlash p = false) : p.segments.getLast? ≠ some "" := by
  intro last
  rw [Path.segments, List.getLast?_map] at last
  obtain ⟨piece, found, empty⟩ := Option.map_eq_some_iff.1 last
  rw [String.ofList_eq_empty_iff.1 empty] at found
  rcases Path.getLast?_pieces found with none | ends
  · have inhabited : p.text.isEmpty = true := by simpa using none
    simp only [acceptSpelling, inhabited] at accepted
    split at accepted
    · cases accepted
    · cases accepted
  · simp [endsInSlash, ends] at slash

theorem locate_of_entry {d : Disk} {p : Path} {e : Entry} (entered : d.entry p = .ok e)
    (plain : e.isNamed = true) (slash : endsInSlash p = false)
    (short : ¬ e.name.utf8ByteSize > longestName) : d.locate p = .ok e.fullName := by
  obtain ⟨accepted, reached, folder, named⟩ := entry_eq_ok entered
  obtain ⟨before, last, segments⟩ : ∃ before last, p.segments = before ++ [last] :=
    ⟨_, _, (List.dropLast_concat_getLast p.segments_ne_nil).symm⟩
  have inhabited : last ≠ "" := by
    rintro rfl
    exact last_segment_ne_empty accepted slash (by rw [segments, List.getLast?_concat])
  rw [segments, splitLast_append inhabited] at reached named
  subst named
  simp [Entry.isNamed, inhabited] at plain
  rw [locate_eq_ok_iff, segments, follow_append, reached]
  simp [accepted, Except.bind, follow, folder, inhabited, plain, short, Entry.fullName]

theorem locate_of_openForWriting {d : Disk} {p : Path} {name : FullName} {content : Content}
    {isLocked : Bool} (opened : d.openForWriting p = .ok (name, content, isLocked)) :
    d.locate p = .ok name := by
  obtain ⟨e, entered, plain, slash, short, _, rfl⟩ := openForWriting_eq_ok opened
  exact locate_of_entry entered plain slash short

theorem readText_eq_ok_iff {d : Disk} {p : Path} {text : String} :
    d.readText p = .ok text ↔
      ∃ name isLocked, d.find p = .ok (name, .file (.text text) isLocked) := by
  rw [readText, readContent]
  rcases d.find p with fault | ⟨name, node⟩
  · simp [bind, Except.bind]
  · rcases node with _ | ⟨content, isLocked⟩
    · simp [bind, Except.bind]
    · cases content <;> simp [bind, Except.bind]

theorem writeLocked_eq {d : Disk} {p : Path} {name : FullName}
    {content : Content} {isLocked : Bool} (found : d.find p = .ok (name, .file content isLocked))
    (text : String) :
    d.writeLocked p text =
      if isLocked then .error (.locked p) else .ok (d.setNode name (.file (.text text) false)) := by
  rw [writeLocked, openForWriting_eq found]

-- The same names with the same folders among them; what the files hold may differ.
structure SameShape (d e : Disk) : Prop where
  working : e.working = d.working
  present : ∀ name, e.node? name = none ↔ d.node? name = none
  folders : ∀ name, e.node? name = some .folder ↔ d.node? name = some .folder

namespace SameShape

variable {d e : Disk}

theorem refl (d : Disk) : SameShape d d := ⟨rfl, fun _ => .rfl, fun _ => .rfl⟩

theorem trans {f : Disk} (first : SameShape d e) (second : SameShape e f) : SameShape d f where
  working := second.working.trans first.working
  present name := (second.present name).trans (first.present name)
  folders name := (second.folders name).trans (first.folders name)

theorem follow_eq (shape : SameShape d e) (here : FullName) (segments : List String) :
    e.follow here segments = d.follow here segments := by
  induction segments generalizing here with
  | nil => rfl
  | cons segment rest ih =>
      rw [follow, follow]
      have present := shape.present here
      have folders := shape.folders here
      rcases left : e.node? here with _ | _ | _ <;> rcases right : d.node? here with _ | _ | _ <;>
        simp_all

theorem locate_eq (shape : SameShape d e) (p : Path) : e.locate p = d.locate p := by
  simp only [locate, origin, shape.working, shape.follow_eq]

theorem find_eq (shape : SameShape d e) {p : Path}
    (same : ∀ name, d.locate p = .ok name → e.node? name = d.node? name) :
    e.find p = d.find p := by
  rw [find, find, shape.locate_eq]
  cases located : d.locate p with
  | error fault => rfl
  | ok name => simp only [bind, Except.bind, same name located]

end SameShape

section Write

variable {d : Disk} {name : FullName} {old new : Content} {before after : Bool}

theorem node?_setNode_of_ne {other : FullName} (apart : other ≠ name) (node : Node) :
    (d.setNode name node).node? other = d.node? other :=
  FileTree.node?_put_of_ne apart node

theorem node?_setNode_of_holds (holds : Holds d.tree.nodes name)
    (apart : d.node? name ≠ some .folder) (node : Node) (other : FullName) :
    (d.setNode name node).node? other = if other = name then some node else d.node? other :=
  FileTree.node?_put ⟨holds, .inr (below_eq_nil apart)⟩ other

theorem node?_setNode (file : d.node? name = some (.file old before)) (node : Node)
    (other : FullName) :
    (d.setNode name node).node? other = if other = name then some node else d.node? other := by
  have apart : d.node? name ≠ some .folder := by simp [file]
  exact node?_setNode_of_holds (FileTree.holds_of_node? file (ne_nil_of_not_folder apart)) apart
    node other

theorem sameShape_setNode (file : d.node? name = some (.file old before)) :
    SameShape d (d.setNode name (.file new after)) where
  working := rfl
  present other := by
    rw [node?_setNode file]
    split
    · rename_i here
      simp [here, file]
    · rfl
  folders other := by
    rw [node?_setNode file]
    split
    · rename_i here
      simp [here, file]
    · rfl

theorem find_setNode (file : d.node? name = some (.file old before)) {p : Path}
    (located : d.locate p = .ok name) :
    (d.setNode name (.file new after)).find p = .ok (name, .file new after) := by
  rw [find_eq_ok_iff, (sameShape_setNode file).locate_eq, node?_setNode file]
  exact ⟨located, if_pos rfl⟩

theorem find_setNode_of_ne (file : d.node? name = some (.file old before)) {p : Path}
    (apart : d.locate p ≠ .ok name) :
    (d.setNode name (.file new after)).find p = d.find p := by
  refine (sameShape_setNode file).find_eq fun other located => ?_
  rw [node?_setNode file, if_neg]
  rintro rfl
  exact apart located

theorem readText_writeLocked {e : Disk} {p : Path} {former text : String}
    (read : d.readText p = .ok former) (written : d.writeLocked p text = .ok e) :
    e.readText p = .ok text := by
  obtain ⟨name, isLocked, found⟩ := readText_eq_ok_iff.1 read
  obtain ⟨located, file⟩ := find_eq_ok_iff.1 found
  rw [writeLocked] at written
  split at written
  · cases written
  · rename_i opened
    have there := locate_of_openForWriting opened
    rw [located] at there
    cases there
    split at written
    · cases written
    · cases written
      exact readText_eq_ok_iff.2 ⟨name, false, find_setNode file located⟩

end Write

end Disk

end LineLedger
