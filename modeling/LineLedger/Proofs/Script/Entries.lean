import LineLedger.Proofs.Script
import LineLedger.Proofs.Session.Queue
import Mathlib.Data.List.Dedup

set_option autoImplicit false

namespace LineLedger

namespace ScriptEntry

def Proper (e : ScriptEntry) : Prop := 1 ≤ e.line ∧ (e.kind = .delete ∨ e.content ≠ none)

instance (e : ScriptEntry) : Decidable e.Proper := inferInstanceAs (Decidable (_ ∧ _))

-- The line number is looked at first.
def fault (e : ScriptEntry) : EntryProblem := if e.line = 0 then .lineZero else .noContent

theorem problem?_eq (e : ScriptEntry) :
    e.problem? = if e.Proper then none else some e.fault := by
  by_cases zero : e.line = 0
  · simp [problem?, Proper, fault, zero]
  · by_cases delete : e.kind = .delete <;> cases given : e.content <;>
      simp [problem?, Proper, fault, zero, delete, given, Nat.one_le_iff_ne_zero]

end ScriptEntry

namespace Script

section Check

theorem check_eq_ok_iff (number : Nat) (entries : List ScriptEntry) :
    check number entries = .ok () ↔ ∀ e ∈ entries, e.Proper := by
  induction entries generalizing number with
  | nil => simp [check]
  | cons e rest ih =>
      by_cases proper : e.Proper <;> simp [check, ScriptEntry.problem?_eq, proper, ih]

structure FirstAtFault (entries before : List ScriptEntry) (e : ScriptEntry) : Prop where
  split : ∃ after, entries = before ++ e :: after
  before : ∀ earlier ∈ before, earlier.Proper
  fault : ¬ e.Proper

theorem firstAtFault_cons {e first : ScriptEntry} {rest before : List ScriptEntry} :
    FirstAtFault (first :: rest) before e ↔
      (before = [] ∧ e = first ∧ ¬ first.Proper) ∨
      ∃ others, before = first :: others ∧ first.Proper ∧ FirstAtFault rest others e := by
  constructor
  · rintro ⟨⟨after, split⟩, proper, fault⟩
    cases before with
    | nil =>
        cases split
        exact .inl ⟨rfl, rfl, fault⟩
    | cons head others =>
        cases split
        have ⟨here, later⟩ := List.forall_mem_cons.1 proper
        exact .inr ⟨others, rfl, here, ⟨after, rfl⟩, later, fault⟩
  · rintro (⟨rfl, rfl, fault⟩ | ⟨others, rfl, here, ⟨after, rfl⟩, later, fault⟩)
    · exact ⟨⟨rest, rfl⟩, by simp, fault⟩
    · exact ⟨⟨after, rfl⟩, List.forall_mem_cons.2 ⟨here, later⟩, fault⟩

theorem check_eq_error_iff (number : Nat) (entries : List ScriptEntry) (problem : ScriptProblem) :
    check number entries = .error problem ↔ ∃ before e, FirstAtFault entries before e ∧
      problem = .entry (number + before.length) e.fault := by
  induction entries generalizing number with
  | nil =>
      constructor
      · intro refused
        simp [check] at refused
      · rintro ⟨before, e, ⟨⟨after, split⟩, _, _⟩, _⟩
        simp at split
  | cons first rest ih =>
      simp only [firstAtFault_cons]
      by_cases proper : first.Proper
      · simp only [check, ScriptEntry.problem?_eq, proper, if_true, ih]
        constructor
        · rintro ⟨others, e, first, rfl⟩
          refine ⟨_ :: others, e, .inr ⟨others, rfl, trivial, first⟩, ?_⟩
          rw [List.length_cons, Nat.add_assoc, Nat.add_comm 1]
        · rintro ⟨_, e, ⟨_, _, fault⟩ | ⟨others, rfl, _, first⟩, rfl⟩
          · exact absurd trivial fault
          · refine ⟨others, e, first, ?_⟩
            rw [List.length_cons, Nat.add_assoc, Nat.add_comm 1]
      · simp only [check, ScriptEntry.problem?_eq, proper, if_false, Except.error.injEq]
        constructor
        · rintro rfl
          exact ⟨[], first, .inl ⟨rfl, rfl, not_false⟩, rfl⟩
        · rintro ⟨_, _, ⟨rfl, rfl, _⟩ | ⟨_, _, here, _⟩, rfl⟩
          · rfl
          · exact here.elim

end Check

section Parse

variable {text : String} {entries : List ScriptEntry} (spelled : Spells text entries)

include spelled

theorem parse_eq (base : Path) : parse text base = ofEntries base entries := by
  rw [parse, show (Json.read? text).bind entriesOfJson? = _ from spelled]

theorem parse_eq_ok_iff (base : Path) (script : Script) :
    parse text base = .ok script ↔
      (∀ e ∈ entries, e.Proper) ∧ script = ⟨entries.map (·.anchor base)⟩ := by
  rw [parse_eq spelled, ← check_eq_ok_iff 1, ofEntries]
  cases check 1 entries <;> simp [eq_comm]

theorem parse_eq_error_iff (base : Path) (problem : ScriptProblem) :
    parse text base = .error problem ↔ ∃ before e, FirstAtFault entries before e ∧
      problem = .entry (before.length + 1) e.fault := by
  simp only [parse_eq spelled, Nat.add_comm _ 1, ← check_eq_error_iff, ofEntries]
  cases check 1 entries <;> simp

omit spelled in
theorem edit_refused [Python.Grammar] {base : Path} {problem : ScriptProblem}
    (refused : parse text base = .error problem) (settings : Settings) {d : Disk} {path : Path}
    (folder : Script.base path = base) (read : d.readText path = .ok text) (dryRun yes : Bool) :
    Session.edit (Session.queueScript settings d path) d dryRun yes =
      (.error (.script problem), d) := by
  simp [Session.edit, Session.queueScript, load, read, folder, refused, bind, Except.bind]

end Parse

section Record

def lastNaming (entries : List ScriptEntry) (file : Path) (line : Nat) : Option ScriptEntry :=
  entries.reverse.find? fun e => file.Same e.file ∧ e.line = line

theorem latest_recorded {entries : List ScriptEntry} (positive : ∀ e ∈ entries, 1 ≤ e.line)
    (file : Path) (line : Nat) :
    latest file line (entries.map fun e => .recorded e.file e.change) =
      (entries.find? fun e => file.Same e.file ∧ e.line = line + 1).map fun e =>
        Change.make line none e.content e.kind := by
  induction entries with
  | nil => rfl
  | cons e rest ih =>
      have ⟨here, later⟩ := List.forall_mem_cons.1 positive
      have place : line = e.change.line ↔ e.line = line + 1 := by
        simp only [ScriptEntry.change, Change.make]
        omega
      simp only [List.map_cons, latest, ih later, List.find?_cons, place]
      by_cases names : file.Same e.file ∧ e.line = line + 1
      · simp [names, ScriptEntry.change]
      · simp [names]

variable {s : Script} (positive : ∀ e ∈ s.entries, 1 ≤ e.line)

include positive

theorem changeAt_recordInto (file : Path) (line : Nat) :
    (s.recordInto .empty).changeAt file line = (lastNaming s.entries file (line + 1)).map fun e =>
      Change.make line none e.content e.kind := by
  have events : s.recordInto .empty =
      (s.entries.map fun e => Event.recorded e.file e.change).foldl Pending.after .empty := by
    rw [recordInto, List.foldl_map]
    rfl
  have proper : ∀ event ∈ s.entries.map fun e => Event.recorded e.file e.change,
      event.Proper := by
    simp only [List.forall_mem_map]
    exact fun e _ => ended_change e
  rw [events, Pending.changeAt_foldl_after Pending.sound_empty proper [] (fun _ _ => rfl),
    List.append_nil, ← List.map_reverse, latest_recorded (by simpa using positive), lastNaming]

theorem isSome_changeAt_recordInto (file : Path) (line : Nat) :
    ((s.recordInto .empty).changeAt file line).isSome = true ↔
      ∃ e ∈ s.entries, file.Same e.file ∧ e.line = line + 1 := by
  simp [changeAt_recordInto positive, lastNaming]

theorem mem_places_recordInto (route : Route) (line : Nat) :
    (route, line) ∈ (s.recordInto .empty).places ↔
      ∃ e ∈ s.entries, e.file.route = route ∧ e.line = line + 1 := by
  have sound : (s.recordInto .empty).Sound :=
    Pending.Reachable.sound ⟨[(⟨.empty, [], ⟨""⟩⟩, .script s)], rfl⟩
  simp only [sound.mem_places_iff, isSome_changeAt_recordInto positive]
  constructor
  · rintro ⟨path, rfl, e, member, same, here⟩
    exact ⟨e, member, same.symm, here⟩
  · rintro ⟨e, member, rfl, here⟩
    exact ⟨e.file, rfl, e, member, rfl, here⟩

theorem size_recordInto : (s.recordInto .empty).size =
    (s.entries.map fun e => (e.file.route, e.line)).dedup.length := by
  have numbered : ((s.recordInto .empty).places.map fun place => (place.1, place.2 + 1)).Perm
      (s.entries.map fun e => (e.file.route, e.line)).dedup := by
    refine (List.perm_ext_iff_of_nodup ?_ (List.nodup_dedup _)).2 fun (route, line) => ?_
    · refine (Pending.nodup_places _).map fun a b same => ?_
      simpa [Prod.ext_iff] using same
    · simp only [List.mem_dedup, List.mem_map, Prod.exists, Prod.mk.injEq,
        mem_places_recordInto positive]
      constructor
      · rintro ⟨_, _, ⟨e, member, named, here⟩, rfl, rfl⟩
        exact ⟨e, member, named, here⟩
      · rintro ⟨e, member, named, here⟩
        have number := positive e member
        exact ⟨route, line - 1, ⟨e, member, named, by omega⟩, rfl, by omega⟩
  simpa [Pending.length_places] using numbered.length_eq

end Record

section Files

-- The files are those that are named, each as it is first spelled, in the order in which they are
-- first named.
structure FirstMentions (named files : List Path) : Prop where
  mem_iff : ∀ file, file ∈ files ↔ named.find? (fun first => first.Same file) = some file
  apart : files.Pairwise fun a b => ¬ a.Same b
  ordered : files.Pairwise fun a b =>
    named.findIdx (fun first => first.Same a) < named.findIdx (fun first => first.Same b)

theorem mem_distinctFrom_iff (seen : List Route) (named : List Path) (file : Path) :
    file ∈ distinctFrom seen named ↔
      file.route ∉ seen ∧ named.find? (fun first => first.Same file) = some file := by
  induction named generalizing seen with
  | nil => simp [distinctFrom]
  | cons path rest ih =>
      have fresh : path.Same file → (file.route ∈ seen ↔ path.route ∈ seen) := fun same =>
        same ▸ Iff.rfl
      have other : ¬ path.Same file → file ≠ path ∧ file.route ≠ path.route := fun apart =>
        ⟨fun same => apart (same ▸ rfl), fun same => apart same.symm⟩
      by_cases same : path.Same file
      · -- This is the first mention, and it is listed unless the file was seen before.
        by_cases before : path.route ∈ seen
        · simp [distinctFrom, ih, before, fresh same]
        · have route : path.route = file.route := same
          simp [distinctFrom, ih, same, ← route, before, eq_comm]
      · by_cases before : path.route ∈ seen
        · simp [distinctFrom, ih, before, same]
        · simp [distinctFrom, ih, before, same, other same]

theorem ordered_distinctFrom (seen : List Route) (named : List Path) :
    (distinctFrom seen named).Pairwise fun a b =>
      named.findIdx (fun first => first.Same a) < named.findIdx (fun first => first.Same b) := by
  induction named generalizing seen with
  | nil => exact .nil
  | cons path rest ih =>
      -- What was seen is not listed again, so the files that follow are first named in the rest.
      have later (seen : List Route) (among : path.route ∈ seen) (file : Path)
          (member : file ∈ distinctFrom seen rest) : ¬ path.Same file := fun same =>
        (distinct_distinctFrom seen rest).1 file member (same ▸ among)
      have shifted (seen : List Route) (among : path.route ∈ seen) :
          (distinctFrom seen rest).Pairwise fun a b =>
            (path :: rest).findIdx (fun first => first.Same a) <
              (path :: rest).findIdx fun first => first.Same b := by
        refine (ih seen).imp_of_mem fun {a b} first second below => ?_
        simpa [List.findIdx_cons, later seen among a first, later seen among b second] using below
      by_cases before : path.route ∈ seen
      · simpa [distinctFrom, before] using shifted seen before
      · have among : path.route ∈ path.route :: seen := List.mem_cons_self ..
        simp only [distinctFrom, List.contains_iff_mem, before, if_false, List.pairwise_cons]
        refine ⟨fun file member => ?_, shifted _ among⟩
        have here : path.Same path := rfl
        simp [List.findIdx_cons, here, later _ among file member]

theorem firstMentions_files (s : Script) :
    FirstMentions (s.entries.map ScriptEntry.file) s.files where
  mem_iff file := by simp [files, mem_distinctFrom_iff]
  apart := (distinct_distinctFrom [] _).2
  ordered := ordered_distinctFrom [] _

end Files

structure Records (s : Script) (p : Pending) : Prop where
  numbered : ∀ e ∈ s.entries, e.change.line + 1 = e.line
  latest : ∀ file line, p.changeAt file line =
    (lastNaming s.entries file (line + 1)).map fun e => Change.make line none e.content e.kind
  size : p.size = (s.entries.map fun e => (e.file.route, e.line)).dedup.length
  files : FirstMentions (s.entries.map ScriptEntry.file) s.files
  listed : ∀ file, file ∈ p.affectedFiles ↔ file ∈ s.files

theorem records_recordInto {s : Script} (positive : ∀ e ∈ s.entries, 1 ≤ e.line) :
    Records s (s.recordInto .empty) where
  numbered e member := Nat.sub_add_cancel (positive e member)
  latest := changeAt_recordInto positive
  size := size_recordInto positive
  files := firstMentions_files s
  listed := s.listed_recordInto

theorem accepted_or_refused [Python.Grammar] {text : String} {entries : List ScriptEntry}
    (spelled : Spells text entries) (base : Path) :
    ((∃ script, parse text base = .ok script) ↔ ∀ e ∈ entries, e.Proper) ∧
    (∀ problem, parse text base = .error problem →
      (∃ before e, FirstAtFault entries before e ∧
        problem = .entry (before.length + 1) e.fault) ∧
      ∀ settings d path, Script.base path = base → d.readText path = .ok text →
        ∀ dryRun yes, Session.edit (Session.queueScript settings d path) d dryRun yes =
          (.error (.script problem), d)) ∧
    ∀ script, parse text base = .ok script →
      script.size = entries.length ∧
      script.entries = entries.map (fun e =>
        { e with file := if e.file.isAbsolute then e.file else base.join e.file }) ∧
      Records script (script.recordInto .empty) := by
  refine ⟨?_, fun problem refused => ⟨(parse_eq_error_iff spelled base problem).1 refused, ?_⟩,
    fun script parsed => ?_⟩
  · simp [parse_eq_ok_iff spelled]
  · exact fun settings d path folder read dryRun yes =>
      edit_refused refused settings folder read dryRun yes
  · obtain ⟨proper, rfl⟩ := (parse_eq_ok_iff spelled base script).1 parsed
    refine ⟨List.length_map _, ?_, records_recordInto ?_⟩
    · refine List.map_congr_left fun e _ => ?_
      by_cases absolute : e.file.isAbsolute = true <;>
        simp [ScriptEntry.anchor, Path.join, absolute]
    · simp only [List.forall_mem_map]
      exact fun e member => (proper e member).1

def revision : List ScriptEntry :=
  [⟨⟨"a"⟩, 2, .edit, some "x"⟩, ⟨⟨"/b"⟩, 1, .insert, some "y"⟩, ⟨⟨"./a/"⟩, 2, .delete, none⟩]

theorem accepted_or_refused_revision :
    let text := Json.toCompact (toJson revision)
    let script : Script := ⟨revision.map (·.anchor ⟨"w"⟩)⟩
    Spells text revision ∧ parse text ⟨"w"⟩ = .ok script ∧
    Records script (script.recordInto .empty) ∧ (script.recordInto .empty).size = 2 ∧
    script.files = [⟨"w/a"⟩, ⟨"/b"⟩] ∧
    (script.recordInto .empty).changeAt ⟨"w/a"⟩ 1 = some (.deletion 1 none) := by
  intro text script
  have spelled : Spells text revision := spells_print (by decide) (by simp [Json.layouts])
  obtain ⟨_, _, success⟩ := accepted_or_refused spelled ⟨"w"⟩
  have parsed : parse text ⟨"w"⟩ = .ok script := by
    rw [parse_eq_ok_iff spelled]
    exact ⟨by decide, rfl⟩
  obtain ⟨_, _, records⟩ := success script parsed
  exact ⟨spelled, parsed, records, records.size, rfl, records.latest _ _⟩

end Script

end LineLedger
