import LineLedger.Proofs.Disk
import LineLedger.Proofs.Pending.Commit

set_option autoImplicit false

namespace LineLedger

namespace Disk

variable {d e : Disk} {p : Path} {name : FullName}

theorem names_iff : d.Names p name ↔
    d.locate p = .ok name ∧ d.node? name ≠ none ∧ d.node? name ≠ some .folder := by
  simp only [Names, find_eq_ok_iff]
  rcases d.node? name with _ | _ | ⟨content, isLocked⟩ <;> simp

theorem SameShape.names_iff (shape : SameShape d e) : e.Names p name ↔ d.Names p name := by
  rw [Disk.names_iff, Disk.names_iff, shape.locate_eq, ne_eq, ne_eq, shape.present, shape.folders]

structure Writes (d e : Disk) (paths : List Path) : Prop where
  shape : SameShape d e
  named : ∀ name, e.node? name ≠ d.node? name → ∃ path ∈ paths, d.Names path name
  texts : ∀ name, e.node? name ≠ d.node? name →
    ∃ text isLocked, d.node? name = some (.file (.text text) isLocked)

namespace Writes

variable {f : Disk} {paths more : List Path}

theorem refl (d : Disk) : Writes d d [] where
  shape := .refl d
  named _ changed := absurd rfl changed
  texts _ changed := absurd rfl changed

theorem trans (first : Writes d e paths) (second : Writes e f more) :
    Writes d f (paths ++ more) where
  shape := first.shape.trans second.shape
  named name changed := by
    by_cases before : e.node? name = d.node? name
    · rw [← before] at changed
      obtain ⟨path, listed, names⟩ := second.named name changed
      exact ⟨path, List.mem_append_right _ listed, first.shape.names_iff.1 names⟩
    · obtain ⟨path, listed, names⟩ := first.named name before
      exact ⟨path, List.mem_append_left _ listed, names⟩
  texts name changed := by
    by_cases before : e.node? name = d.node? name
    · rw [← before] at changed ⊢
      exact second.texts name changed
    · exact first.texts name before

theorem find_eq (writes : Writes d e paths) {failure : Failure}
    (unread : d.readText p = .error failure) : e.find p = d.find p := by
  refine writes.shape.find_eq fun name located => Decidable.byContradiction fun changed => ?_
  obtain ⟨text, isLocked, file⟩ := writes.texts name changed
  rw [readText_eq_ok_iff.2 ⟨name, isLocked, find_eq_ok_iff.2 ⟨located, file⟩⟩] at unread
  cases unread

end Writes

theorem writes_writeLocked {former text : String} (read : d.readText p = .ok former)
    (written : d.writeLocked p text = .ok e) : Writes d e [p] := by
  obtain ⟨name, isLocked, found⟩ := readText_eq_ok_iff.1 read
  obtain ⟨located, file⟩ := find_eq_ok_iff.1 found
  rw [writeLocked] at written
  split at written
  · cases written
  · rename_i opened
    -- The file that is opened for writing is the one that was read.
    have there := locate_of_openForWriting opened
    rw [located] at there
    cases there
    split at written
    · cases written
    · cases written
      have here : ∀ other, (d.setNode name (.file (.text text) false)).node? other ≠
          d.node? other → other = name := by
        intro other changed
        rw [node?_setNode file] at changed
        exact Decidable.byContradiction fun apart => changed (if_neg apart)
      refine ⟨sameShape_setNode file, fun other changed => ?_, fun other changed => ?_⟩
      · exact here other changed ▸ ⟨p, List.mem_singleton_self p, _, _, found⟩
      · exact here other changed ▸ ⟨former, isLocked, file⟩

end Disk

namespace Pending

variable {σ : Type}

theorem writes_commitFile {p next : Pending} {d e : Disk} {path : Path}
    (commit : p.commitFile d path = .ok (next, e)) : Disk.Writes d e [path] := by
  obtain ⟨_, ⟨_, rfl⟩ | ⟨set, text, _, read, written⟩⟩ := commitFile_cases commit
  · exact ⟨.refl e, fun _ changed => absurd rfl changed, fun _ changed => absurd rfl changed⟩
  · exact Disk.writes_writeLocked read written

theorem Batch.writes {policy : Policy σ} {affected : Nat} {standing : Option Bool}
    {run final : Run σ} {files : List Path} {report : ResolveReport}
    (batch : Batch policy affected standing run files report final) :
    Disk.Writes run.disk final.disk report.committed := by
  induction batch with
  | done => exact .refl _
  | declined answer later ih => exact ih
  | committed answer commit later ih => exact (writes_commitFile commit).trans ih
  | failed answer commit later ih => exact ih

end Pending

end LineLedger
