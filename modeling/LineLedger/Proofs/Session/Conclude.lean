import LineLedger.Preview
import LineLedger.Proofs.Pending.Affected
import LineLedger.Proofs.Pending.Batch
import LineLedger.Proofs.Pending.Writes
import LineLedger.Proofs.Session.Display

set_option autoImplicit false

namespace LineLedger

theorem mem_paired {α β : Type} (f : α → Option β) (items : List α) (a : α) (b : β) :
    (a, b) ∈ items.filterMap (fun item => (f item).map (item, ·)) ↔ a ∈ items ∧ f a = some b := by
  simp only [List.mem_filterMap, Option.map_eq_some_iff, Prod.mk.injEq]
  constructor
  · rintro ⟨_, listed, _, found, rfl, rfl⟩
    exact ⟨listed, found⟩
  · rintro ⟨listed, found⟩
    exact ⟨a, listed, b, found, rfl, rfl⟩

namespace Session

section Shown

variable [Python.Grammar] (s : Session) (d : Disk)

def pendingRows (file : Path) : Except Failure (List Row) :=
  (s.display d file).1.map fun rows => rows.filter fun row => row.pending.isSome

def obstacle? (file : Path) : Option Failure :=
  match s.pendingRows d file with
  | .ok _ => none
  | .error failure => some failure

def shown (files : List Path) : Preview :=
  files.filterMap fun file => (s.pendingRows d file).toOption.map (file, ·)

def unreadable (files : List Path) : Failures :=
  files.filterMap fun file => (s.obstacle? d file).map (file, ·)

theorem mem_shown (files : List Path) (file : Path) (rows : List Row) :
    (file, rows) ∈ s.shown d files ↔ file ∈ files ∧ s.pendingRows d file = .ok rows := by
  rw [shown, mem_paired]
  cases s.pendingRows d file <;> simp [Except.toOption]

theorem mem_unreadable (files : List Path) (file : Path) (failure : Failure) :
    (file, failure) ∈ s.unreadable d files ↔
      file ∈ files ∧ s.pendingRows d file = .error failure := by
  rw [unreadable, mem_paired, obstacle?]
  cases s.pendingRows d file <;> simp

-- A file can be shown just if it can be read.
theorem pendingRows_eq_error_iff (file : Path) (failure : Failure) :
    s.pendingRows d file = .error failure ↔ d.readText file = .error failure := by
  rw [pendingRows]
  cases read : d.readText file with
  | ok text =>
      cases found : s.pending.get? file with
      | none => simp [display_settled found read, Except.map]
      | some set => simp [display_pending found read, Except.map]
  | error other =>
      cases found : s.pending.get? file <;>
        simp [display, Pending.overlay, Pending.rows, Language.classifyFile, found, read, bind,
          Except.bind, Except.map]

theorem exists_display_eq (file : Path) :
    ∃ rows registry, s.display d file = (rows, { s with registry }) ∧
      ∀ other, (registry.lookUpPath other).1 = (s.registry.lookUpPath other).1 := by
  rw [display]
  cases s.pending.overlay d file with
  | error failure => exact ⟨_, s.registry, rfl, fun _ => rfl⟩
  | ok shown => exact ⟨_, _, rfl, s.registry.lookUpPath_after file⟩

theorem pendingRows_after {registry : Registry}
    (same : ∀ other, (registry.lookUpPath other).1 = (s.registry.lookUpPath other).1) :
    { s with registry }.pendingRows d = s.pendingRows d := by
  funext file
  rw [pendingRows, pendingRows, display, display]
  cases s.pending.overlay d file with
  | error failure => rfl
  | ok shown => simp only [same]

theorem preview_eq (files : List Path) :
    ∃ registry, s.preview d files =
      (s.shown d files, s.unreadable d files, { s with registry }) := by
  induction files generalizing s with
  | nil => exact ⟨s.registry, rfl⟩
  | cons file rest ih =>
      obtain ⟨rows, registry, displayed, same⟩ := s.exists_display_eq d file
      obtain ⟨final, later⟩ := ih { s with registry }
      have after := s.pendingRows_after d same
      refine ⟨final, ?_⟩
      simp only [preview, displayed, later, shown, unreadable, obstacle?, after,
        List.filterMap_cons]
      rw [pendingRows, displayed]
      cases rows <;> rfl

end Shown

end Session

section WithoutTerminal

theorem ConfirmMode.ask_withoutTerminal {mode : ConfirmMode} (asks : mode ≠ .never)
    (wasAsked : Bool) (request : ConfirmRequest) :
    (mode.apply .withoutTerminal).ask wasAsked request = (Confirmation.no.always, true) := by
  cases mode with
  | never => exact absurd rfl asks
  | once | perFile => rfl

namespace Pending

variable {σ : Type}

theorem resolveEach_declined (policy : Policy σ) (affected : Nat) (run : Run σ)
    (files : List Path) :
    resolveEach policy affected (some false) run files =
      ({ ResolveReport.empty with rejected := files }, run) := by
  induction files with
  | nil => rfl
  | cons path rest ih =>
      rw [resolveEach_cons]
      simp only [Policy.consult, Bool.false_eq_true, if_false, ih]

theorem resolveAll_withoutTerminal {mode : ConfirmMode} (asks : mode ≠ .never) (p : Pending)
    (d : Disk) :
    resolveAll (mode.apply .withoutTerminal) ⟨p, d, false⟩ =
      ({ ResolveReport.empty with rejected := p.affectedFiles },
        ⟨p, d, !p.affectedFiles.isEmpty⟩) := by
  rw [resolveAll]
  cases p.affectedFiles with
  | nil => rfl
  | cons path rest =>
      rw [resolveEach_cons]
      simp only [Policy.consult, ConfirmMode.ask_withoutTerminal asks, Confirmation.no,
        Confirmation.always, Bool.false_eq_true, if_false, if_true, resolveEach_declined,
        List.isEmpty_cons, Bool.not_false]

theorem Batch.policy_eq {policy : Policy σ}
    (still : ∀ state request, (policy.ask state request).2 = state) {affected : Nat}
    {standing : Option Bool} {run final : Run σ} {files : List Path} {report : ResolveReport}
    (batch : Batch policy affected standing run files report final) :
    final.policy = run.policy := by
  have kept {standing next : Option Bool} {state later : σ} {request : ConfirmRequest}
      {accept : Bool} (answer : policy.consult standing state request = (accept, next, later)) :
      later = state := by
    cases standing with
    | some _ =>
        cases answer
        rfl
    | none =>
        cases answer
        exact still state request
  induction batch with
  | done => rfl
  | declined answer later ih => exact ih.trans (kept answer)
  | committed answer commit later ih => exact ih.trans (kept answer)
  | failed answer commit later ih => exact ih.trans (kept answer)

end Pending

end WithoutTerminal

namespace Session

-- Without a terminal nothing is written unless it is written unasked.
theorem commitUnasked_cases (mode : ConfirmMode) (s : Session) (d : Disk) :
    mode ≠ .never ∧ s.commitUnasked mode d = (.error .withoutTerminal, s, d) ∨
    ∃ (policy : Policy Bool) (report : ResolveReport) (final : Pending.Run Bool),
      Pending.Batch policy s.pending.affectedFiles.length none ⟨s.pending, d, false⟩
        s.pending.affectedFiles report final ∧
      (mode = .never ∨ final.disk = d) ∧
      s.commitUnasked mode d = (.ok report, { s with pending := final.pending }, final.disk) := by
  have batch (policy : Policy Bool) :=
    Pending.batch_resolveEach policy s.pending.affectedFiles.length none ⟨s.pending, d, false⟩
      s.pending.affectedFiles
  rw [commitUnasked]
  by_cases none : s.pending.size = 0
  · rw [if_pos none]
    have files := Pending.affectedFiles_of_size none
    refine .inr ⟨.acceptAll, .empty, ⟨s.pending, d, false⟩, ?_, .inr rfl, rfl⟩
    rw [files]
    exact .done _ _
  · rw [if_neg none, commit]
    by_cases asks : mode = .never
    · subst asks
      have unasked := (batch .acceptAll).policy_eq fun _ _ => rfl
      refine .inr ⟨.acceptAll, _, _, batch .acceptAll, .inl rfl, ?_⟩
      simp only [ConfirmMode.apply, Pending.resolveAll, unasked]
      rfl
    · rw [Pending.resolveAll_withoutTerminal asks]
      cases files : s.pending.affectedFiles with
      | nil => exact .inr ⟨.acceptAll, .empty, ⟨s.pending, d, false⟩, .done _ _, .inr rfl, rfl⟩
      | cons path rest => exact .inl ⟨asks, rfl⟩

theorem foldl_discard (s : Session) (failures : Failures) :
    failures.foldl (fun s file => s.discard file.1) s =
      { s with pending := s.pending.dropAll (failures.map Prod.fst) } := by
  induction failures generalizing s with
  | nil => rfl
  | cons failure rest ih => exact ih (s.discard failure.1)

variable [Python.Grammar]

def kept (s : Session) (d : Disk) (files : List Path) : Pending :=
  s.pending.dropAll ((s.unreadable d files).map Prod.fst)

theorem conclude_dryRun (s : Session) (d : Disk) (files : List Path) (yes : Bool) :
    ∃ final, s.conclude d files true yes =
      (.ok ⟨s.shown d files, .tried (s.unreadable d files)⟩, final, d) := by
  obtain ⟨registry, previewed⟩ := s.preview_eq d files
  rw [conclude, previewed]
  exact ⟨_, rfl⟩

theorem conclude_cases (s : Session) (d : Disk) (files : List Path) (yes : Bool) :
    (yes = false ∧ s.settings.confirm ≠ .never ∧
      ∃ final, s.conclude d files false yes = (.error .withoutTerminal, final, d)) ∨
    ∃ (policy : Policy Bool) (report : ResolveReport) (run : Pending.Run Bool) (final : Session),
      Pending.Batch policy (s.kept d files).affectedFiles.length none ⟨s.kept d files, d, false⟩
        (s.kept d files).affectedFiles report run ∧
      (yes = true ∨ s.settings.confirm = .never ∨ run.disk = d) ∧ final.pending = run.pending ∧
      s.conclude d files false yes =
        (.ok ⟨s.shown d files, .resolved (report.addFailed (s.unreadable d files))⟩, final,
          run.disk) := by
  obtain ⟨registry, previewed⟩ := s.preview_eq d files
  rw [conclude, previewed]
  simp only [foldl_discard, Bool.false_eq_true, if_false]
  rcases commitUnasked_cases (if yes then .never else s.settings.confirm)
      { s with registry, pending := s.pending.dropAll ((s.unreadable d files).map Prod.fst) } d with
    ⟨asks, refused⟩ | ⟨policy, report, run, batch, unasked, resolved⟩
  · rw [refused]
    cases yes with
    | true => exact absurd rfl asks
    | false => exact .inl ⟨rfl, asks, _, rfl⟩
  · rw [resolved]
    refine .inr ⟨policy, report, run, _, batch, ?_, rfl, rfl⟩
    cases yes with
    | true => exact .inl rfl
    | false => exact .inr unasked

end Session

end LineLedger
