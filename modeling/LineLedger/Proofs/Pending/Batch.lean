import LineLedger.Proofs.Disk
import LineLedger.Proofs.Pending.Calls

set_option autoImplicit false

namespace LineLedger

variable {σ : Type}

def Policy.answers (policy : Policy σ) (standing : Option Bool) (state : σ) :
    List ConfirmRequest → List Bool
  | [] => []
  | request :: rest =>
    let (accept, next, state) := policy.consult standing state request
    accept :: answers policy next state rest

theorem Policy.answers_cons {policy : Policy σ} {standing next : Option Bool} {state later : σ}
    {request : ConfirmRequest} {accept : Bool}
    (answer : policy.consult standing state request = (accept, next, later))
    (rest : List ConfirmRequest) :
    policy.answers standing state (request :: rest) = accept :: policy.answers next later rest := by
  rw [answers, answer]

namespace Pending

section Fates

variable {policy : Policy σ} {affected : Nat} {standing : Option Bool} {run final : Run σ}
  {files : List Path} {report : ResolveReport}

theorem Batch.perm (batch : Batch policy affected standing run files report final) :
    (report.committed ++ report.rejected ++ report.failed.map Prod.fst).Perm files := by
  induction batch with
  | done => exact .nil
  | @declined _ _ _ _ _ path _ report answer later ih =>
      have moved : (report.committed ++ path :: report.rejected).Perm
          (path :: (report.committed ++ report.rejected)) := List.perm_middle
      exact (moved.append_right _).trans (ih.cons path)
  | @committed _ _ _ _ _ path _ report _ _ answer commit later ih => exact ih.cons path
  | @failed _ _ _ _ _ path _ report _ answer commit later ih =>
      exact List.perm_middle.trans (ih.cons path)

theorem Batch.sublists (batch : Batch policy affected standing run files report final) :
    report.committed.Sublist files ∧ report.rejected.Sublist files ∧
      (report.failed.map Prod.fst).Sublist files := by
  induction batch with
  | done => exact ⟨.slnil, .slnil, .slnil⟩
  | declined answer later ih => exact ⟨ih.1.cons _, ih.2.1.cons_cons _, ih.2.2.cons _⟩
  | committed answer commit later ih =>
      exact ⟨ih.1.cons_cons _, ih.2.1.cons _, ih.2.2.cons _⟩
  | failed answer commit later ih =>
      exact ⟨ih.1.cons _, ih.2.1.cons _, ih.2.2.cons_cons _⟩

theorem Batch.get?_sets (batch : Batch policy affected standing run files report final)
    (route : Route) :
    final.pending.sets.get? route =
      if route ∈ report.committed.map Path.route then none
      else run.pending.sets.get? route := by
  induction batch with
  | done => rfl
  | declined answer later ih => exact ih
  | committed answer commit later ih =>
      rw [ih, (commitFile_cases commit).1, get?_sets_discard]
      simp only [List.map_cons, List.mem_cons]
      grind
  | failed answer commit later ih => exact ih

theorem Batch.get?_eq (batch : Batch policy affected standing run files report final)
    (file : Path) :
    final.pending.get? file =
      if ∃ done ∈ report.committed, done.Same file then none else run.pending.get? file := by
  have listed : file.route ∈ report.committed.map Path.route ↔
      ∃ done ∈ report.committed, done.Same file := List.mem_map
  rw [get?, batch.get?_sets, get?]
  by_cases done : file.route ∈ report.committed.map Path.route
  · rw [if_pos done, if_pos (listed.1 done)]
    rfl
  · rw [if_neg done, if_neg fun committed => done (listed.2 committed)]

theorem request_discard (p : Pending) {done file : Path} (apart : ¬ done.Same file)
    (affected : Nat) : (p.discard done).2.request file affected = p.request file affected := by
  have other : file.route ≠ done.route := fun same => apart same.symm
  simp [request, get?, get?_sets_discard, other]

theorem requests_discard (p : Pending) {done : Path} {rest : List Path}
    (apart : ∀ file ∈ rest, ¬ done.Same file) (affected : Nat) :
    (rest.map fun file => (p.discard done).2.request file affected) =
      rest.map fun file => p.request file affected :=
  List.map_congr_left fun file member => request_discard p (apart file member) affected

theorem Batch.fates (batch : Batch policy affected standing run files report final)
    (routes : files.Pairwise fun a b => ¬ a.Same b) :
    let requests := files.map fun file => run.pending.request file affected
    let answers := files.zip (policy.answers standing run.policy requests)
    (∀ file, (file, false) ∈ answers ↔ file ∈ report.rejected) ∧
      ∀ file, (file, true) ∈ answers ↔
        file ∈ report.committed ∨ file ∈ report.failed.map Prod.fst := by
  induction batch with
  | done => simp [ResolveReport.empty]
  | declined answer later ih =>
      have ⟨no, yes⟩ := ih routes.of_cons
      simp only [List.map_cons, Policy.answers_cons answer, List.zip_cons_cons, List.mem_cons,
        Prod.mk.injEq, Bool.true_eq_false, and_true, and_false, false_or]
      exact ⟨fun file => or_congr_right (no file), yes⟩
  | committed answer commit later ih =>
      have ⟨no, yes⟩ := ih routes.of_cons
      have apart := (List.pairwise_cons.1 routes).1
      simp only [(commitFile_cases commit).1, requests_discard _ apart] at no yes
      simp only [List.map_cons, Policy.answers_cons answer, List.zip_cons_cons, List.mem_cons,
        Prod.mk.injEq, Bool.false_eq_true, and_true, and_false, false_or, or_assoc]
      exact ⟨no, fun file => or_congr_right (yes file)⟩
  | failed answer commit later ih =>
      have ⟨no, yes⟩ := ih routes.of_cons
      simp only [List.map_cons, Policy.answers_cons answer, List.zip_cons_cons, List.mem_cons,
        Prod.mk.injEq, Bool.false_eq_true, and_true, and_false, false_or]
      exact ⟨no, fun file => (or_congr_right (yes file)).trans or_left_comm⟩

end Fates

section Files

variable {p next : Pending} {d e : Disk} {path : Path} {rest : List Path}

structure Ready (p : Pending) (d : Disk) (files : List Path) : Prop where
  kept : ∀ file ∈ files, ∃ set, p.sets.get? file.route = some set
  routes : files.Pairwise fun a b => ¬ a.Same b
  apart : files.Pairwise fun a b => ∀ name, d.Names a name → ¬ d.Names b name

theorem Ready.tail (ready : Ready p d (path :: rest)) : Ready p d rest where
  kept file member := ready.kept file (List.mem_cons_of_mem _ member)
  routes := ready.routes.of_cons
  apart := ready.apart.of_cons

def Rewritten (p : Pending) (d e : Disk) (path : Path) (name : FullName) : Prop :=
  ∃ set text, p.sets.get? path.route = some set ∧
    d.find path = .ok (name, .file (.text text) false) ∧
    e.find path = .ok (name, .file (.text (String.join (set.apply (Text.lines text)))) false)

theorem commitFile_ok (kept : ∃ set, p.sets.get? path.route = some set)
    (commit : p.commitFile d path = .ok (next, e)) :
    next = (p.discard path).2 ∧ ∃ name content, Rewritten p d e path name ∧
      e = d.setNode name (.file content false) := by
  obtain ⟨same, absent | ⟨set, text, found, read, written⟩⟩ := commitFile_cases commit
  · obtain ⟨set, found⟩ := kept
    rw [absent.1] at found
    cases found
  · obtain ⟨name, isLocked, file⟩ := Disk.readText_eq_ok_iff.1 read
    rw [Disk.writeLocked_eq file] at written
    cases isLocked with
    | true => cases written
    | false =>
        cases written
        obtain ⟨located, node⟩ := Disk.find_eq_ok_iff.1 file
        exact ⟨same, name, _, ⟨set, text, found, file, Disk.find_setNode node located⟩, rfl⟩

theorem commitFile_error {failure : Failure}
    (commit : p.commitFile d path = .error failure) (name : FullName) (text : String) :
    d.find path ≠ .ok (name, .file (.text text) false) := by
  intro file
  have read : d.readText path = .ok text := Disk.readText_eq_ok_iff.2 ⟨name, false, file⟩
  rcases commitFile_failure commit with unread | ⟨set, other, _, _, unwritten⟩
  · rw [read] at unread
    cases unread
  · rw [Disk.writeLocked_eq file] at unwritten
    cases unwritten

theorem Ready.others (ready : Ready p d (path :: rest))
    (commit : p.commitFile d path = .ok (next, e)) {file : Path} (member : file ∈ rest) :
    e.find file = d.find file ∧ next.sets.get? file.route = p.sets.get? file.route := by
  obtain ⟨same, name, content, ⟨set, text, _, found, _⟩, rfl⟩ :=
    commitFile_ok (ready.kept path (List.mem_cons_self ..)) commit
  obtain ⟨located, node⟩ := Disk.find_eq_ok_iff.1 found
  constructor
  · refine Disk.find_setNode_of_ne node fun there => ?_
    have named : d.Names file name := ⟨_, _, Disk.find_eq_ok_iff.2 ⟨there, node⟩⟩
    exact (List.pairwise_cons.1 ready.apart).1 file member name ⟨_, _, found⟩ named
  · rw [same, get?_sets_discard, if_neg]
    exact fun other => (List.pairwise_cons.1 ready.routes).1 file member other.symm

theorem Ready.after_commit (ready : Ready p d (path :: rest))
    (commit : p.commitFile d path = .ok (next, e)) : Ready next e rest where
  kept file member := by
    rw [(ready.others commit member).2]
    exact ready.kept file (List.mem_cons_of_mem _ member)
  routes := ready.routes.of_cons
  apart := by
    refine List.Pairwise.imp_of_mem ?_ ready.apart.of_cons
    intro a b first second apart name
    rw [Disk.Names, Disk.Names, (ready.others commit first).1, (ready.others commit second).1]
    exact apart name

end Files

section Disks

variable {policy : Policy σ} {affected : Nat} {standing : Option Bool} {run final : Run σ}
  {files : List Path} {report : ResolveReport}

structure Replaces (p : Pending) (d e : Disk) (report : ResolveReport) : Prop where
  shape : Disk.SameShape d e
  written : ∀ file ∈ report.committed, ∃ name, Rewritten p d e file name
  unchanged : ∀ name, (∀ file ∈ report.committed, ¬ d.Names file name) →
    e.node? name = d.node? name
  refused : ∀ file ∈ report.failed.map Prod.fst, ∀ name text,
    d.find file ≠ .ok (name, .file (.text text) false)

theorem Replaces.after_commit {p next : Pending} {d middle e : Disk} {path : Path}
    {rest : List Path} (ready : Ready p d (path :: rest))
    (commit : p.commitFile d path = .ok (next, middle)) (listed : report.committed ⊆ rest)
    (failing : report.failed.map Prod.fst ⊆ rest) (later : Replaces next middle e report) :
    Replaces p d e { report with committed := path :: report.committed } := by
  obtain ⟨_, name, content, ⟨set, text, kept, found, put⟩, rfl⟩ :=
    commitFile_ok (ready.kept path (List.mem_cons_self ..)) commit
  have node := (Disk.find_eq_ok_iff.1 found).2
  have others {file : Path} (member : file ∈ rest) := ready.others commit member
  have names {file : Path} (member : file ∈ rest) (other : FullName) :
      (d.setNode name (.file content false)).Names file other ↔ d.Names file other := by
    rw [Disk.Names, Disk.Names, (others member).1]
  constructor
  · exact (Disk.sameShape_setNode node).trans later.shape
  · intro file member
    rcases List.mem_cons.1 member with rfl | member
    · -- The later commits leave this file as it was just written.
      have still := later.unchanged name fun other member named =>
        (List.pairwise_cons.1 ready.apart).1 other (listed member) name ⟨_, _, found⟩
          ((names (listed member) name).1 named)
      refine ⟨name, set, text, kept, found, (later.shape.find_eq ?_).trans put⟩
      intro there located
      rw [(Disk.find_eq_ok_iff.1 put).1] at located
      cases located
      exact still
    · obtain ⟨there, set, text, kept, found, put⟩ := later.written file member
      obtain ⟨sameFile, sameSet⟩ := others (listed member)
      exact ⟨there, set, text, sameSet ▸ kept, sameFile ▸ found, put⟩
  · intro other unnamed
    have apart : other ≠ name := by
      rintro rfl
      exact unnamed path (List.mem_cons_self ..) ⟨_, _, found⟩
    rw [later.unchanged other, Disk.node?_setNode node, if_neg apart]
    intro file member named
    exact unnamed file (List.mem_cons_of_mem _ member) ((names (listed member) other).1 named)
  · intro file member there text
    rw [← (others (failing member)).1]
    exact later.refused file member there text

theorem Batch.replaces (batch : Batch policy affected standing run files report final)
    (ready : Ready run.pending run.disk files) :
    Replaces run.pending run.disk final.disk report := by
  induction batch with
  | done =>
      exact ⟨.refl _, fun _ member => (nomatch member), fun _ _ => rfl,
        fun _ member => (nomatch member)⟩
  | declined answer later ih =>
      have ⟨shape, written, unchanged, refused⟩ := ih ready.tail
      exact ⟨shape, written, unchanged, refused⟩
  | committed answer commit later ih =>
      have ⟨among, _, failing⟩ := later.sublists
      exact (ih (ready.after_commit commit)).after_commit ready commit among.subset
        failing.subset
  | failed answer commit later ih =>
      have ⟨shape, written, unchanged, refused⟩ := ih ready.tail
      refine ⟨shape, written, unchanged, fun file member => ?_⟩
      rcases List.mem_cons.1 member with rfl | member
      · exact commitFile_error commit
      · exact refused file member

end Disks

-- A batch settles every file. `answers` are the files of the batch, each with the policy's answer
-- to it.
structure Settles (answers : List (Path × Bool)) (p next : Pending) (d e : Disk)
    (report : ResolveReport) : Prop where
  split : (report.committed ++ report.rejected ++ report.failed.map Prod.fst).Perm p.affectedFiles
  once : p.affectedFiles.Nodup
  ordered : report.committed.Pairwise (fun a b => a.before b = true) ∧
    report.rejected.Pairwise (fun a b => a.before b = true) ∧
    (report.failed.map Prod.fst).Pairwise fun a b => a.before b = true
  declined : ∀ file, (file, false) ∈ answers ↔ file ∈ report.rejected
  accepted : ∀ file, (file, true) ∈ answers ↔
    file ∈ report.committed ∨ file ∈ report.failed.map Prod.fst
  failed : ∀ file, (file, true) ∈ answers →
    (file ∈ report.failed.map Prod.fst ↔
      (∀ content, d.readContent file ≠ .ok content) ∨
      (∃ bytes, d.readContent file = .ok (.bytes bytes)) ∨ d.IsLocked file)
  cleared : ∀ file, next.get? file = none ↔
    (∃ done ∈ report.committed, done.Same file) ∨ p.get? file = none
  kept : ∀ file ∈ report.rejected ++ report.failed.map Prod.fst,
    ∃ set, p.get? file = some set ∧ next.get? file = some set
  written : ∀ file ∈ report.committed, ∃ name set text, p.get? file = some set ∧
    d.find file = .ok (name, .file (.text text) false) ∧
    e.find file = .ok (name, .file (.text (String.join (set.apply (Text.lines text)))) false)
  unchanged : ∀ name, (∀ file ∈ report.committed, ¬ d.Names file name) →
    e.node? name = d.node? name
  created : ∀ name, e.node? name = none ↔ d.node? name = none

theorem Sound.ready {p : Pending} (sound : p.Sound) {d : Disk}
    (apart : p.affectedFiles.Pairwise fun a b => ∀ name, d.Names a name → ¬ d.Names b name) :
    Ready p d p.affectedFiles where
  kept file member := by
    rw [← sound.get?_eq, ← sound.mem_affectedFiles]
    exact ⟨file, member, rfl⟩
  routes := sound.affectedFiles_routes
  apart := apart

end Pending

theorem Disk.refuses_iff (d : Disk) (p : Path) :
    (∀ name text, d.find p ≠ .ok (name, .file (.text text) false)) ↔
      (∀ content, d.readContent p ≠ .ok content) ∨
      (∃ bytes, d.readContent p = .ok (.bytes bytes)) ∨ d.IsLocked p := by
  rw [readContent, IsLocked]
  rcases d.find p with fault | ⟨name, node⟩
  · simp [bind, Except.bind]
  · rcases node with _ | ⟨content, isLocked⟩
    · simp [bind, Except.bind]
    · cases content <;> cases isLocked <;> simp [bind, Except.bind]

namespace Pending

theorem resolveAll_settles (policy : Policy σ) (state : σ) {p : Pending} (reachable : p.Reachable)
    {d : Disk}
    (apart : p.affectedFiles.Pairwise fun a b => ∀ name, d.Names a name → ¬ d.Names b name) :
    let files := p.affectedFiles
    let requests := files.map fun file => p.request file files.length
    let answers := files.zip (policy.answers none state requests)
    let (report, final) := resolveAll policy ⟨p, d, state⟩
    Settles answers p final.pending d final.disk report := by
  intro files requests answers
  have batch := batch_resolveEach policy files.length none ⟨p, d, state⟩ files
  change Settles answers p (resolveEach policy files.length none ⟨p, d, state⟩ files).2.pending d
    (resolveEach policy files.length none ⟨p, d, state⟩ files).2.disk
    (resolveEach policy files.length none ⟨p, d, state⟩ files).1
  generalize resolveEach policy files.length none ⟨p, d, state⟩ files = outcome at batch ⊢
  obtain ⟨report, final⟩ := outcome
  have sound := reachable.sound
  have ready : Ready p d files := sound.ready apart
  obtain ⟨shape, written, unchanged, refused⟩ := batch.replaces ready
  obtain ⟨declined, accepted⟩ := batch.fates ready.routes
  obtain ⟨committedAmong, rejectedAmong, failedAmong⟩ := batch.sublists
  have once : files.Nodup := ready.routes.imp fun apart same => apart (congrArg Path.route same)
  have ordered := sound.affectedFiles_ordered
  refine
    { split := batch.perm, once, declined, accepted
      ordered := ⟨ordered.sublist committedAmong, ordered.sublist rejectedAmong,
        ordered.sublist failedAmong⟩
      failed := ?_, cleared := ?_, kept := ?_, written := ?_, unchanged, created := shape.present }
  · intro file agreed
    rw [← Disk.refuses_iff]
    refine ⟨refused file, fun refuses => ((accepted file).1 agreed).resolve_left fun done => ?_⟩
    obtain ⟨name, _, text, _, found, _⟩ := written file done
    exact refuses name text found
  · intro file
    rw [batch.get?_eq]
    split <;> simp_all
  · intro file member
    have split := batch.perm
    rw [List.append_assoc] at split
    have among : file ∈ files := split.subset (List.mem_append_right _ member)
    -- No committed file has the same route: it would be this one, which was not committed.
    have uncommitted : ¬ ∃ done ∈ report.committed, done.Same file := by
      rintro ⟨done, committed, same⟩
      have here := sound.eq_of_same (committedAmong.subset committed) among same
      exact (List.nodup_append.1 (split.nodup_iff.2 once)).2.2 done committed file member here
    obtain ⟨set, found⟩ := ready.kept file among
    rw [← sound.get?_eq] at found
    exact ⟨set, found, by rw [batch.get?_eq, if_neg uncommitted, found]⟩
  · intro file done
    obtain ⟨name, set, text, found, read, put⟩ := written file done
    exact ⟨name, set, text, (sound.get?_eq file).trans found, read, put⟩

def notes : Disk :=
  ⟨⟨.ofList [(["a"], .file (.text "one\n") false), (["b"], .file (.text "two\n") true)],
    by decide +kernel⟩, [], ⟨""⟩⟩

def noteEdits : Pending :=
  (runCalls .empty [(notes, .edit ⟨"b"⟩ 0 none "y"), (notes, .edit ⟨"a"⟩ 0 none "x")]).2

theorem apart_notes :
    noteEdits.affectedFiles.Pairwise fun a b => ∀ name, notes.Names a name → ¬ notes.Names b name := by
  have files : noteEdits.affectedFiles = [⟨"a"⟩, ⟨"b"⟩] := rfl
  rw [files]
  refine List.pairwise_pair.2 fun name first second => ?_
  have here : notes.locate ⟨"a"⟩ = .ok ["a"] := rfl
  have there : notes.locate ⟨"b"⟩ = .ok ["b"] := rfl
  have left := here.symm.trans first.located
  have right := there.symm.trans second.located
  exact absurd (left.trans right.symm) (by simp)

theorem resolveAll_settles_notes :
    noteEdits.Reachable ∧
    noteEdits.affectedFiles.Pairwise
      (fun a b => ∀ name, notes.Names a name → ¬ notes.Names b name) ∧
    let (report, final) := resolveAll .acceptAll ⟨noteEdits, notes, ()⟩
    Settles [(⟨"a"⟩, true), (⟨"b"⟩, true)] noteEdits final.pending notes final.disk report ∧
    report = ⟨[⟨"a"⟩], [], [(⟨"b"⟩, .locked ⟨"b"⟩)]⟩ ∧
    final.disk.readText ⟨"a"⟩ = .ok "x\n" ∧ final.disk.readText ⟨"b"⟩ = .ok "two\n" :=
  ⟨⟨_, rfl⟩, apart_notes, resolveAll_settles .acceptAll () ⟨_, rfl⟩ apart_notes, rfl, rfl, rfl⟩

end Pending

end LineLedger
