import LineLedger.Proofs.Session.Conclude

set_option autoImplicit false

namespace LineLedger

namespace Session

variable {s final : Session} {d e : Disk} {files : List Path} {settings : Settings}

theorem start_eq_ok {root : Path} (started : start root settings = .ok s) :
    s.settings = settings ∧ s.pending = .empty := by
  rw [start] at started
  split at started
  · cases started
    exact ⟨rfl, rfl⟩
  · cases started

variable [Python.Grammar]

structure Queued (s : Session) (d : Disk) (files : List Path) : Prop where
  sound : s.pending.Sound
  listed : ∀ file ∈ s.pending.affectedFiles, file ∈ files
  once : ((s.unreadable d files).map Prod.fst).Nodup
  pending : ∀ file ∈ (s.unreadable d files).map Prod.fst, file ∈ s.pending.affectedFiles

section Queue

theorem sublist_unreadable (s : Session) (d : Disk) (files : List Path) :
    ((s.unreadable d files).map Prod.fst).Sublist files := by
  induction files with
  | nil => exact .slnil
  | cons file rest ih =>
      rw [unreadable, List.filterMap_cons]
      cases s.obstacle? d file with
      | none => exact ih.cons file
      | some failure => exact ih.cons_cons file

theorem unreadable_eq_nil (s : Session)
    (readable : ∀ file ∈ files, ∃ text, d.readText file = .ok text) :
    s.unreadable d files = [] := by
  refine List.eq_nil_iff_forall_not_mem.2 fun (file, failure) member => ?_
  obtain ⟨listed, unread⟩ := (s.mem_unreadable d files file failure).1 member
  obtain ⟨text, read⟩ := readable file listed
  rw [pendingRows_eq_error_iff, read] at unread
  cases unread

theorem queued_queueScript {path : Path}
    (queued : queueScript settings d path = .ok (s, files)) :
    s.settings = settings ∧ s.Queued d files := by
  rw [queueScript, bind_eq_ok] at queued
  obtain ⟨script, -, queued⟩ := queued
  obtain ⟨fresh, started, queued⟩ := bind_eq_ok.1 queued
  obtain ⟨same, empty⟩ := start_eq_ok started
  rw [empty] at queued
  cases queued
  have sound : (script.recordInto .empty).Sound :=
    Pending.Reachable.sound ⟨[(d, .script script)], rfl⟩
  refine ⟨same, sound, fun file => (script.listed_recordInto file).1, ?_, ?_⟩
  · exact script.nodup_files.sublist (sublist_unreadable _ d script.files)
  · exact fun file member =>
      (script.listed_recordInto file).2 ((sublist_unreadable _ d _).subset member)

theorem queued_queueRename [Disk.Walker] {folder : Path} {whole : Bool} {old new : String}
    (queued : queueRename settings d folder whole old new = .ok (s, files)) :
    s.settings = settings ∧ s.Queued d files := by
  rw [queueRename, bind_eq_ok] at queued
  obtain ⟨fresh, started, queued⟩ := queued
  obtain ⟨same, empty⟩ := start_eq_ok started
  simp only [rename, empty] at queued
  cases walked : fresh.files d with
  | error failure => simp [walked] at queued
  | ok found =>
      simp only [walked] at queued
      cases queued
      have none := unreadable_eq_nil
        { fresh with pending := (Pending.rename whole old new d .empty found).2 }
        (Pending.readable_rename whole old new d .empty found)
      refine ⟨same, Pending.Reachable.sound ⟨[(d, .rename whole old new found)], rfl⟩,
        fun file => Pending.listed_rename whole old new d found, ?_, ?_⟩
      · rw [none]
        exact .nil
      · rw [none]
        exact fun _ member => nomatch member

end Queue

structure Accounted (s : Session) (d e : Disk) (final : Session) (report : ResolveReport) :
    Prop where
  split : (report.committed ++ report.rejected ++ report.failed.map Prod.fst).Perm
    s.pending.affectedFiles
  apart : s.pending.affectedFiles.Pairwise fun a b => ¬ a.Same b
  unshown : ∀ file ∈ s.pending.affectedFiles, ∀ failure, s.pendingRows d file = .error failure →
    (file, failure) ∈ report.failed ∧ e.find file = d.find file ∧ final.pending.get? file = none

namespace Queued

theorem mem_unreadable_iff (queued : s.Queued d files) (file : Path) (failure : Failure) :
    (file, failure) ∈ s.unreadable d files ↔
      file ∈ s.pending.affectedFiles ∧ s.pendingRows d file = .error failure := by
  constructor
  · intro member
    exact ⟨queued.pending file (List.mem_map_of_mem member),
      ((s.mem_unreadable d files file failure).1 member).2⟩
  · rintro ⟨listed, unread⟩
    exact (s.mem_unreadable d files file failure).2 ⟨queued.listed file listed, unread⟩

theorem shown_of_kept (queued : s.Queued d files) {file : Path}
    (kept : file ∈ (s.kept d files).affectedFiles) :
    ∃ rows, s.pendingRows d file = .ok rows ∧ (file, rows) ∈ s.shown d files := by
  obtain ⟨pending, readable⟩ := (queued.sound.listed_dropAll _ file).1 kept
  cases displayed : s.pendingRows d file with
  | ok rows =>
      have listed := queued.listed file pending
      exact ⟨rows, rfl, (s.mem_shown d files file rows).2 ⟨listed, displayed⟩⟩
  | error failure =>
      have member := (queued.mem_unreadable_iff file failure).2 ⟨pending, displayed⟩
      exact absurd rfl (readable file (List.mem_map_of_mem member))

variable {σ : Type} {policy : Policy σ} {affected : Nat} {standing : Option Bool} {state : σ}
  {report : ResolveReport} {run : Pending.Run σ}

theorem accounted (queued : s.Queued d files)
    (batch : Pending.Batch policy affected standing ⟨s.kept d files, d, state⟩
      (s.kept d files).affectedFiles report run) (same : final.pending = run.pending) :
    s.Accounted d run.disk final (report.addFailed (s.unreadable d files)) where
  split := by
    have split := queued.sound.perm_dropAll queued.once queued.pending
    refine List.Perm.trans ?_ split
    rw [ResolveReport.addFailed, List.map_append, ← List.append_assoc]
    exact batch.perm.append_right _
  apart := queued.sound.affectedFiles_routes
  unshown file pending failure unread := by
    have member := (queued.mem_unreadable_iff file failure).2 ⟨pending, unread⟩
    refine ⟨List.mem_append_right _ member, ?_, ?_⟩
    · exact batch.writes.find_eq ((s.pendingRows_eq_error_iff d file failure).1 unread)
    · have dropped : (s.kept d files).get? file = none :=
        queued.sound.get?_dropAll (List.mem_map_of_mem member)
      rw [same, batch.get?_eq, dropped, ite_self]

end Queued

theorem edit_cases {queue : Except Failure (Session × List Path)}
    (sound : ∀ s files, queue = .ok (s, files) → s.Queued d files) (dryRun yes : Bool) :
    (∃ failure, queue = .error failure ∧ edit queue d dryRun yes = (.error failure, d)) ∨
    (∃ s files, queue = .ok (s, files) ∧ dryRun = false ∧ yes = false ∧
      s.settings.confirm ≠ .never ∧ edit queue d dryRun yes = (.error .withoutTerminal, d)) ∨
    (∃ s files, queue = .ok (s, files) ∧ dryRun = true ∧
      edit queue d dryRun yes = (.ok ⟨s.shown d files, .tried (s.unreadable d files)⟩, d)) ∨
    ∃ s files report e, queue = .ok (s, files) ∧ dryRun = false ∧
      edit queue d dryRun yes = (.ok ⟨s.shown d files, .resolved report⟩, e) ∧
      s.Accounted d e (s.conclude d files false yes).2.1 report ∧
      Disk.Writes d e report.committed ∧ (yes = true ∨ s.settings.confirm = .never ∨ e = d) ∧
      ∀ file ∈ report.committed, ∃ rows, s.pendingRows d file = .ok rows ∧
        (file, rows) ∈ s.shown d files := by
  cases queue with
  | error failure => exact .inl ⟨failure, rfl, rfl⟩
  | ok result =>
      obtain ⟨s, files⟩ := result
      have queued := sound s files rfl
      cases dryRun with
      | true =>
          obtain ⟨final, concluded⟩ := s.conclude_dryRun d files yes
          exact .inr (.inr (.inl ⟨s, files, rfl, rfl, by rw [edit, concluded]⟩))
      | false =>
          rcases s.conclude_cases d files yes with
            ⟨unasked, asks, final, refused⟩ |
            ⟨policy, report, run, final, batch, unasked, same, resolved⟩
          · exact .inr (.inl ⟨s, files, rfl, rfl, unasked, asks, by rw [edit, refused]⟩)
          · refine .inr (.inr (.inr ⟨s, files, report.addFailed (s.unreadable d files), run.disk,
              rfl, rfl, by rw [edit, resolved], ?_, batch.writes, unasked, ?_⟩))
            · rw [resolved]
              exact queued.accounted batch same
            · exact fun file committed =>
                queued.shown_of_kept (batch.sublists.1.subset committed)

end Session

end LineLedger
