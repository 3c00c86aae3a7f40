import LineLedger.Proofs.Pending.Batch

set_option autoImplicit false

namespace LineLedger

variable {σ : Type}

namespace Policy

structure FileByFile (policy : Policy σ) : Prop where
  notForAll : ∀ state request, (policy.ask state request).1.forAll = false
  blind : ∀ state file changes count other,
    policy.ask state ⟨file, changes, count⟩ = policy.ask state ⟨file, changes, other⟩

theorem FileByFile.ask_of_consult {policy : Policy σ} (each : policy.FileByFile)
    {next : Option Bool} {state later : σ} {request : ConfirmRequest} {accept : Bool}
    (answer : policy.consult none state request = (accept, next, later)) :
    next = none ∧ policy.ask state request = (⟨accept, false⟩, later) := by
  have notForAll := each.notForAll state request
  rcases asked : policy.ask state request with ⟨⟨yes, forAll⟩, after⟩
  simp only [asked] at notForAll
  simp only [consult, asked, notForAll, Bool.false_eq_true, if_false, Prod.mk.injEq] at answer
  simp [answer, notForAll]

end Policy

namespace Pending

def resolveInTurn (policy : Policy σ) (run : Run σ) :
    List Path → List (Path × Except Failure Bool) × Run σ
  | [] => ([], run)
  | path :: rest =>
    let (result, next) := resolve policy run path
    let (results, final) := resolveInTurn policy next rest
    ((path, result) :: results, final)

variable {policy : Policy σ}

section Step

variable {run : Run σ} {path : Path} {affected : Nat} {next : Option Bool} {state : σ}
  {accept : Bool}

-- The batch asks with the number of files that it started with, the call with that of now.
theorem resolve_of_consult (each : policy.FileByFile) (pending : run.pending.isPending path = true)
    (answer : policy.consult none run.policy (run.pending.request path affected) =
      (accept, next, state)) :
    resolve policy run path =
      if accept then
        match run.pending.commitFile run.disk path with
        | .ok (pending, disk) => (.ok true, ⟨pending, disk, state⟩)
        | .error failure => (.error failure, { run with policy := state })
      else (.ok false, { run with policy := state }) := by
  have asked : policy.ask run.policy
      (run.pending.request path run.pending.affectedFiles.length) = (⟨accept, false⟩, state) := by
    rw [← (each.ask_of_consult answer).2]
    exact each.blind ..
  cases accept with
  | false => simp [resolve, pending, asked]
  | true =>
      simp only [resolve, pending, asked]
      cases run.pending.commitFile run.disk path <;> rfl

theorem isPending_discard (p : Pending) {done file : Path} (apart : ¬ done.Same file) :
    (p.discard done).2.isPending file = p.isPending file := by
  have other : file.route ≠ done.route := fun same => apart same.symm
  simp [isPending, get?, get?_sets_discard, other]

end Step

structure Agrees (results : List (Path × Except Failure Bool)) (report : ResolveReport) :
    Prop where
  committed : ∀ path, (path, .ok true) ∈ results ↔ path ∈ report.committed
  rejected : ∀ path, (path, .ok false) ∈ results ↔ path ∈ report.rejected
  failed : ∀ path failure, (path, .error failure) ∈ results ↔ (path, failure) ∈ report.failed

theorem Batch.in_turn (each : policy.FileByFile) {affected : Nat} {standing : Option Bool}
    {run final : Run σ} {files : List Path} {report : ResolveReport}
    (batch : Batch policy affected standing run files report final)
    (unanswered : standing = none)
    (pending : ∀ file ∈ files, run.pending.isPending file = true)
    (routes : files.Pairwise fun a b => ¬ a.Same b) :
    ∃ results, resolveInTurn policy run files = (results, final) ∧
      results.map Prod.fst = files ∧ Agrees results report := by
  induction batch with
  | done => exact ⟨[], rfl, rfl, by constructor <;> simp [ResolveReport.empty]⟩
  | @declined _ _ _ _ _ path _ _ answer later ih =>
      subst unanswered
      obtain ⟨here, others⟩ := List.forall_mem_cons.1 pending
      obtain ⟨results, rest, listed, agrees⟩ :=
        ih (each.ask_of_consult answer).1 others routes.of_cons
      refine ⟨(path, .ok false) :: results, ?_, by simp [listed], ?_⟩
      · simp [resolveInTurn, resolve_of_consult each here answer, rest]
      · constructor <;> simp [agrees.committed, agrees.rejected, agrees.failed]
  | @committed _ _ _ _ _ path _ _ _ _ answer commit later ih =>
      subst unanswered
      obtain ⟨here, others⟩ := List.forall_mem_cons.1 pending
      -- The commit forgets the file of this path alone, so the later ones are still pending.
      have apart := (List.pairwise_cons.1 routes).1
      obtain ⟨results, rest, listed, agrees⟩ :=
        ih (each.ask_of_consult answer).1 (fun file member => by
          rw [(commitFile_cases commit).1, isPending_discard _ (apart file member)]
          exact others file member) routes.of_cons
      refine ⟨(path, .ok true) :: results, ?_, by simp [listed], ?_⟩
      · simp [resolveInTurn, resolve_of_consult each here answer, commit, rest]
      · constructor <;> simp [agrees.committed, agrees.rejected, agrees.failed]
  | @failed _ _ _ _ _ path _ _ failure answer commit later ih =>
      subst unanswered
      obtain ⟨here, others⟩ := List.forall_mem_cons.1 pending
      obtain ⟨results, rest, listed, agrees⟩ :=
        ih (each.ask_of_consult answer).1 others routes.of_cons
      refine ⟨(path, .error failure) :: results, ?_, by simp [listed], ?_⟩
      · simp [resolveInTurn, resolve_of_consult each here answer, commit, rest]
      · constructor <;> simp [agrees.committed, agrees.rejected, agrees.failed]

theorem resolveAll_in_turn (each : policy.FileByFile) (state : σ) {p : Pending}
    (reachable : p.Reachable) (d : Disk) :
    let (results, last) := resolveInTurn policy ⟨p, d, state⟩ p.affectedFiles
    let (report, final) := resolveAll policy ⟨p, d, state⟩
    last = final ∧ results.map Prod.fst = p.affectedFiles ∧ Agrees results report := by
  have sound := reachable.sound
  have batch := batch_resolveEach policy p.affectedFiles.length none ⟨p, d, state⟩ p.affectedFiles
  have pending : ∀ file ∈ p.affectedFiles, p.isPending file = true := by
    intro file listed
    obtain ⟨set, kept⟩ := (sound.mem_affectedFiles file).1 ⟨file, listed, rfl⟩
    simp [isPending, kept]
  obtain ⟨results, turns, listed, agrees⟩ :=
    batch.in_turn each rfl pending sound.affectedFiles_routes
  rw [turns]
  exact ⟨rfl, listed, agrees⟩

def twoOnly : Policy Nat := ⟨fun asked _ => (⟨asked < 2, false⟩, asked + 1)⟩

theorem fileByFile_twoOnly : twoOnly.FileByFile := ⟨fun _ _ => rfl, fun _ _ _ _ _ => rfl⟩

theorem resolveAll_in_turn_notes :
    let p := (runCalls .empty [(notes, .edit ⟨"b"⟩ 0 none "y"), (notes, .delete ⟨"c"⟩ 7 none),
      (notes, .edit ⟨"a"⟩ 0 none "x")]).2
    twoOnly.FileByFile ∧ p.Reachable ∧
    let (results, last) := resolveInTurn twoOnly ⟨p, notes, 0⟩ p.affectedFiles
    let (report, final) := resolveAll twoOnly ⟨p, notes, 0⟩
    last = final ∧
      results = [(⟨"a"⟩, .ok true), (⟨"b"⟩, .error (.locked ⟨"b"⟩)), (⟨"c"⟩, .ok false)] ∧
      report = ⟨[⟨"a"⟩], [⟨"c"⟩], [(⟨"b"⟩, .locked ⟨"b"⟩)]⟩ ∧
      last.disk.readText ⟨"a"⟩ = .ok "x\n" :=
  ⟨fileByFile_twoOnly, ⟨_, rfl⟩,
    (resolveAll_in_turn fileByFile_twoOnly 0 ⟨_, rfl⟩ notes).1, rfl, rfl, rfl⟩

end Pending

end LineLedger
