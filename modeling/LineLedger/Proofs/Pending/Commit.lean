import LineLedger.Proofs.Pending.Invariant

set_option autoImplicit false

namespace LineLedger

variable {σ : Type}

def Policy.consult (policy : Policy σ) (standing : Option Bool) (state : σ)
    (request : ConfirmRequest) : Bool × Option Bool × σ :=
  match standing with
  | some accept => (accept, some accept, state)
  | none =>
    let (answer, state) := policy.ask state request
    (answer.accept, if answer.forAll then some answer.accept else none, state)

namespace Pending

theorem commitFile_cases {p next : Pending} {d final : Disk} {path : Path}
    (committed : p.commitFile d path = .ok (next, final)) :
    next = (p.discard path).2 ∧
      (p.sets.get? path.route = none ∧ final = d ∨
        ∃ set text, p.sets.get? path.route = some set ∧ d.readText path = .ok text ∧
          d.writeLocked path (String.join (set.apply (Text.lines text))) = .ok final) := by
  unfold commitFile at committed
  split at committed
  · rename_i absent
    cases committed
    exact ⟨by simp [discard, Table.erase_of_get?_eq_none absent], .inl ⟨absent, rfl⟩⟩
  · rename_i set found
    cases read : d.readText path with
    | error failure => simp [read, bind, Except.bind] at committed
    | ok text =>
        simp only [read, bind, Except.bind] at committed
        split at committed
        · cases committed
        · rename_i written
          cases committed
          exact ⟨rfl, .inr ⟨set, text, found, rfl, written⟩⟩

theorem commitFile_failure {p : Pending} {d : Disk} {path : Path} {failure : Failure}
    (failed : p.commitFile d path = .error failure) :
    d.readText path = .error failure ∨
      ∃ set text, p.sets.get? path.route = some set ∧ d.readText path = .ok text ∧
        d.writeLocked path (String.join (set.apply (Text.lines text))) = .error failure := by
  unfold commitFile at failed
  split at failed
  · cases failed
  · rename_i set found
    cases read : d.readText path with
    | error other =>
        simp only [read, bind, Except.bind] at failed
        cases failed
        exact .inl rfl
    | ok text =>
        simp only [read, bind, Except.bind] at failed
        split at failed
        · rename_i written
          cases failed
          exact .inr ⟨set, text, found, rfl, written⟩
        · cases failed

theorem resolve_cases (policy : Policy σ) (run : Run σ) (path : Path) :
    (∃ state, resolve policy run path = (.ok false, { run with policy := state })) ∨
    (∃ next final state, run.pending.commitFile run.disk path = .ok (next, final) ∧
      run.pending.isPending path = true ∧ resolve policy run path = (.ok true, ⟨next, final, state⟩)) ∨
    (∃ failure state, run.pending.commitFile run.disk path = .error failure ∧
      resolve policy run path = (.error failure, { run with policy := state })) := by
  unfold resolve
  cases pending : run.pending.isPending path with
  | false => exact .inl ⟨run.policy, rfl⟩
  | true =>
      rcases asked : policy.ask run.policy
        (run.pending.request path run.pending.affectedFiles.length) with ⟨⟨accept, forAll⟩, state⟩
      cases accept with
      | false => exact .inl ⟨state, by simp [asked]⟩
      | true =>
          cases committed : run.pending.commitFile run.disk path with
          | error failure => exact .inr (.inr ⟨failure, state, rfl, by simp [asked, committed]⟩)
          | ok result =>
              exact .inr (.inl ⟨result.1, result.2, state, rfl, rfl, by simp [asked, committed]⟩)

inductive Batch (policy : Policy σ) (affected : Nat) :
    Option Bool → Run σ → List Path → ResolveReport → Run σ → Prop where
  | done (standing : Option Bool) (run : Run σ) : Batch policy affected standing run [] .empty run
  | declined {standing next : Option Bool} {run final : Run σ} {state : σ} {path : Path}
      {rest : List Path} {report : ResolveReport}
      (answer : policy.consult standing run.policy (run.pending.request path affected) =
        (false, next, state))
      (later : Batch policy affected next { run with policy := state } rest report final) :
      Batch policy affected standing run (path :: rest)
        { report with rejected := path :: report.rejected } final
  | committed {standing next : Option Bool} {run final : Run σ} {state : σ} {path : Path}
      {rest : List Path} {report : ResolveReport} {pending : Pending} {disk : Disk}
      (answer : policy.consult standing run.policy (run.pending.request path affected) =
        (true, next, state))
      (commit : run.pending.commitFile run.disk path = .ok (pending, disk))
      (later : Batch policy affected next ⟨pending, disk, state⟩ rest report final) :
      Batch policy affected standing run (path :: rest)
        { report with committed := path :: report.committed } final
  | failed {standing next : Option Bool} {run final : Run σ} {state : σ} {path : Path}
      {rest : List Path} {report : ResolveReport} {failure : Failure}
      (answer : policy.consult standing run.policy (run.pending.request path affected) =
        (true, next, state))
      (commit : run.pending.commitFile run.disk path = .error failure)
      (later : Batch policy affected next { run with policy := state } rest report final) :
      Batch policy affected standing run (path :: rest)
        { report with failed := (path, failure) :: report.failed } final

theorem resolveEach_cons (policy : Policy σ) (affected : Nat) (standing : Option Bool)
    (run : Run σ) (path : Path) (rest : List Path) :
    resolveEach policy affected standing run (path :: rest) =
      let (accept, next, state) :=
        policy.consult standing run.policy (run.pending.request path affected)
      if accept then
        match run.pending.commitFile run.disk path with
        | .ok (pending, disk) =>
          let (report, final) := resolveEach policy affected next ⟨pending, disk, state⟩ rest
          ({ report with committed := path :: report.committed }, final)
        | .error failure =>
          let (report, final) :=
            resolveEach policy affected next { run with policy := state } rest
          ({ report with failed := (path, failure) :: report.failed }, final)
      else
        let (report, final) := resolveEach policy affected next { run with policy := state } rest
        ({ report with rejected := path :: report.rejected }, final) := by
  cases standing with
  | some accept => cases accept <;> rfl
  | none =>
      rcases asked : policy.ask run.policy (run.pending.request path affected) with
        ⟨⟨accept, forAll⟩, state⟩
      cases accept <;> simp only [resolveEach, Policy.consult, asked] <;> rfl

theorem batch_resolveEach (policy : Policy σ) (affected : Nat) (standing : Option Bool)
    (run : Run σ) (files : List Path) :
    Batch policy affected standing run files (resolveEach policy affected standing run files).1
      (resolveEach policy affected standing run files).2 := by
  induction files generalizing standing run with
  | nil => exact .done standing run
  | cons path rest ih =>
      rw [resolveEach_cons]
      rcases answer : policy.consult standing run.policy (run.pending.request path affected) with
        ⟨accept, next, state⟩
      cases accept with
      | false => exact .declined answer (ih _ _)
      | true =>
          cases commit : run.pending.commitFile run.disk path with
          | ok result => exact .committed answer commit (ih _ _)
          | error failure => exact .failed answer commit (ih _ _)

end Pending

end LineLedger
