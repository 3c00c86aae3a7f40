import LineLedger.Invocation
import LineLedger.Proofs.Session.Queue

set_option autoImplicit false

namespace LineLedger

namespace Invocation

section AnyOutside

variable [Python.Grammar] [Disk.Walker]

def FailsFor (i : Invocation) (failure : Failure) (d : Disk) (dryRun yes : Bool)
    (queue : Settings → Except Failure (Session × List Path)) : Prop :=
  Settings.load d i.config = .error failure ∨
    ∃ settings, Settings.load d i.config = .ok settings ∧
      (queue settings = .error failure ∨
        failure = .withoutTerminal ∧ dryRun = false ∧ yes = false ∧ settings.confirm ≠ .never)

structure Edits (i : Invocation) (d : Disk) (dryRun yes : Bool)
    (queue : Settings → Except Failure (Session × List Path)) : Prop where
  tried : dryRun = true → (i.answer d).2 = d
  failed : ∀ failure, (i.answer d).1 = .error failure → (i.answer d).2 = d ∧
    i.FailsFor failure d dryRun yes queue
  changed : ∀ name, (i.answer d).2.node? name ≠ d.node? name →
    ∃ settings s files preview report,
      Settings.load d i.config = .ok settings ∧ queue settings = .ok (s, files) ∧
      (i.answer d).1 = .ok (.edit ⟨preview, .resolved report⟩) ∧
      (yes = true ∨ settings.confirm = .never) ∧
      ∃ file ∈ report.committed, d.Names file name ∧
        ∃ rows, s.pendingRows d file = .ok rows ∧ (file, rows) ∈ preview
  answered : ∀ answer, (i.answer d).1 = .ok answer →
    ∃ settings s files,
      Settings.load d i.config = .ok settings ∧ queue settings = .ok (s, files) ∧
      (dryRun = true → ∃ preview unreadable, answer = .edit ⟨preview, .tried unreadable⟩ ∧
        (unreadable.map Prod.fst).Nodup ∧ ∀ file failure, (file, failure) ∈ unreadable ↔
          file ∈ s.pending.affectedFiles ∧ s.pendingRows d file = .error failure) ∧
      (dryRun = false → ∃ preview report, answer = .edit ⟨preview, .resolved report⟩ ∧
        s.Accounted d (i.answer d).2 (s.conclude d files false yes).2.1 report)

section Edits

variable {i : Invocation} {d e : Disk} {dryRun yes : Bool} {settings : Settings} {s : Session}
  {files : List Path} {queue : Settings → Except Failure (Session × List Path)}

theorem edits_of_error {failure : Failure} (refused : i.answer d = (.error failure, d))
    (cause : i.FailsFor failure d dryRun yes queue) : i.Edits d dryRun yes queue where
  tried _ := by rw [refused]
  failed other same := by
    rw [refused] at same ⊢
    cases same
    exact ⟨rfl, cause⟩
  changed name changed := by
    rw [refused] at changed
    exact absurd rfl changed
  answered answer answered := by
    rw [refused] at answered
    cases answered

theorem edits_of_tried (loaded : Settings.load d i.config = .ok settings)
    (queued : queue settings = .ok (s, files)) (good : s.Queued d files)
    (tried : i.answer d = (.ok (.edit ⟨s.shown d files, .tried (s.unreadable d files)⟩), d)) :
    i.Edits d true yes queue where
  tried _ := by rw [tried]
  failed failure failed := by
    rw [tried] at failed
    cases failed
  changed name changed := by
    rw [tried] at changed
    exact absurd rfl changed
  answered answer answered := by
    rw [tried] at answered
    cases answered
    exact ⟨settings, s, files, loaded, queued,
      fun _ => ⟨_, _, rfl, good.once, good.mem_unreadable_iff⟩, fun real => nomatch real⟩

theorem edits_of_resolved {report : ResolveReport}
    (loaded : Settings.load d i.config = .ok settings) (queued : queue settings = .ok (s, files))
    (resolved : i.answer d = (.ok (.edit ⟨s.shown d files, .resolved report⟩), e))
    (accounted : s.Accounted d e (s.conclude d files false yes).2.1 report)
    (writes : Disk.Writes d e report.committed)
    (consent : yes = true ∨ settings.confirm = .never ∨ e = d)
    (shown : ∀ file ∈ report.committed, ∃ rows, s.pendingRows d file = .ok rows ∧
      (file, rows) ∈ s.shown d files) : i.Edits d false yes queue where
  tried trial := nomatch trial
  failed failure failed := by
    rw [resolved] at failed
    cases failed
  changed name changed := by
    rw [resolved] at changed
    obtain ⟨file, committed, names⟩ := writes.named name changed
    have agreed : yes = true ∨ settings.confirm = .never := by
      rcases consent with given | never | same
      · exact .inl given
      · exact .inr never
      · exact absurd (by rw [same]) changed
    exact ⟨settings, s, files, _, report, loaded, queued, by rw [resolved], agreed, file, committed,
      names, shown file committed⟩
  answered answer answered := by
    rw [resolved] at answered ⊢
    cases answered
    exact ⟨settings, s, files, loaded, queued, fun trial => (nomatch trial),
      fun _ => ⟨_, report, rfl, accounted⟩⟩

theorem edits_of_run
    (sound : ∀ settings s files, queue settings = .ok (s, files) →
      s.settings.confirm = settings.confirm ∧ s.Queued d files)
    (run : ∀ settings, i.command.run settings d =
      let (outcome, d) := Session.edit (queue settings) d dryRun yes
      (outcome.map Answer.edit, d)) : i.Edits d dryRun yes queue := by
  cases loaded : Settings.load d i.config with
  | error failure => exact edits_of_error (by rw [answer, loaded]) (.inl loaded)
  | ok settings =>
      have answer : i.answer d = i.command.run settings d := by rw [answer, loaded]
      have good := fun s files queued => (sound settings s files queued).2
      rw [run] at answer
      rcases Session.edit_cases good dryRun yes with ⟨failure, queued, edited⟩ |
        ⟨s, files, queued, rfl, rfl, asks, edited⟩ | ⟨s, files, queued, rfl, edited⟩ |
        ⟨s, files, report, e, queued, rfl, edited, accounted, writes, consent, shown⟩
      · rw [edited] at answer
        exact edits_of_error answer (.inr ⟨settings, loaded, .inl queued⟩)
      · rw [edited] at answer
        rw [(sound settings s files queued).1] at asks
        exact edits_of_error answer (.inr ⟨settings, loaded, .inr ⟨rfl, rfl, rfl, asks⟩⟩)
      · rw [edited] at answer
        exact edits_of_tried loaded queued (good s files queued) answer
      · rw [edited] at answer
        rw [(sound settings s files queued).1] at consent
        exact edits_of_resolved loaded queued answer accounted writes consent shown

end Edits

theorem answer_edits (i : Invocation) (d : Disk) :
    match i.command with
    | .apply script dryRun yes =>
      i.Edits d dryRun yes fun settings => Session.queueScript settings d script
    | .rename old new folder exts whole dryRun yes =>
      i.Edits d dryRun yes fun settings =>
        Session.queueRename (settings.withExtensions exts) d folder whole old new
    | .classify _ | .scan _ _ | .extensions _ => (i.answer d).2 = d := by
  have reads (still : ∀ settings, (i.command.run settings d).2 = d) : (i.answer d).2 = d := by
    rw [answer]
    cases Settings.load d i.config with
    | error failure => rfl
    | ok settings => exact still settings
  split
  · rename_i script dryRun yes command
    refine edits_of_run (fun settings s files queued => ?_) fun settings => by rw [command]; rfl
    have ⟨same, good⟩ := Session.queued_queueScript queued
    exact ⟨congrArg Settings.confirm same, good⟩
  · rename_i old new folder exts whole dryRun yes command
    refine edits_of_run (fun settings s files queued => ?_) fun settings => by rw [command]; rfl
    have ⟨same, good⟩ := Session.queued_queueRename queued
    have confirm : (settings.withExtensions exts).confirm = settings.confirm := by
      rw [Settings.withExtensions]
      split <;> rfl
    exact ⟨(congrArg Settings.confirm same).trans confirm, good⟩
  · rename_i command
    exact reads fun settings => by rw [command]; rfl
  · rename_i command
    exact reads fun settings => by rw [command]; rfl
  · rename_i command
    exact reads fun settings => by rw [command]; rfl

end AnyOutside

def drafts : Disk :=
  ⟨⟨.ofList [
    (["s"], .file (.text (
      "[\x7b\"file\": \"a\", \"line\": 1, \"kind\": \"edit\", \"content\": \"x\"\x7d, " ++
      "\x7b\"file\": \"b\", \"line\": 1, \"kind\": \"delete\"\x7d, " ++
      "\x7b\"file\": \"c\", \"line\": 1, \"kind\": \"delete\"\x7d]")) false),
    (["a"], .file (.text "one\n") false), (["b"], .file (.text "two\n") true)],
    by decide +kernel⟩, [], ⟨""⟩⟩

example :
    let (answer, e) := answer ⟨.apply ⟨"s"⟩ false true, .text, none, false⟩ drafts
    answer.toOption = some (.edit ⟨
        [(⟨"a"⟩, [⟨⟨"a:1", 1, none, none, "x"⟩, some .edit⟩]),
          (⟨"b"⟩, [⟨⟨"b:1", 1, none, none, ""⟩, some .delete⟩])],
        .resolved ⟨[⟨"a"⟩], [], [(⟨"b"⟩, .locked ⟨"b"⟩), (⟨"c"⟩, .unreadable ⟨"c"⟩ .missing)]⟩⟩) ∧
      e.node? ["a"] = some (.file (.text "x\n") false) ∧ e.node? ["b"] = drafts.node? ["b"] := by
  decide +kernel

end Invocation

end LineLedger
