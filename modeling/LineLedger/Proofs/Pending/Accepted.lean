import LineLedger.Proofs.Pending.Batch
import LineLedger.Proofs.Pending.Writes

set_option autoImplicit false

namespace LineLedger

namespace Disk

variable {d e : Disk} {path other : Path}

def Apart (d : Disk) (path other : Path) : Prop := ∀ name, d.Names path name → ¬ d.Names other name

theorem SameShape.apart_iff (shape : SameShape d e) : e.Apart path other ↔ d.Apart path other := by
  simp only [Apart, shape.names_iff]

theorem Writes.find_eq_of_apart {paths : List Path} (writes : Writes d e paths)
    (apart : ∀ other ∈ paths, d.Apart path other) : e.find path = d.find path := by
  refine writes.shape.find_eq fun name located => Decidable.byContradiction fun changed => ?_
  obtain ⟨text, isLocked, file⟩ := writes.texts name changed
  obtain ⟨other, listed, names⟩ := writes.named name changed
  exact apart other listed name ⟨_, _, find_eq_ok_iff.2 ⟨located, file⟩⟩ names

end Disk

namespace Pending

variable {σ : Type} {p : Pending} {d : Disk} {path : Path}

section Commit

variable {set : ChangeSet} {name : FullName} {text : String} {isLocked : Bool}

theorem commitFile_eq (kept : p.sets.get? path.route = some set)
    (found : d.find path = .ok (name, .file (.text text) false)) :
    p.commitFile d path = .ok ((p.discard path).2,
      d.setNode name (.file (.text (String.join (set.apply (Text.lines text)))) false)) := by
  have read : d.readText path = .ok text := Disk.readText_eq_ok_iff.2 ⟨name, false, found⟩
  rw [commitFile, kept]
  simp only [read, Disk.writeLocked_eq found, bind, Except.bind]
  rfl

theorem find_commitFile (kept : p.sets.get? path.route = some set)
    (found : d.find path = .ok (name, .file (.text text) isLocked)) {next : Pending} {e : Disk}
    (commit : p.commitFile d path = .ok (next, e)) : e.find path =
      .ok (name, .file (.text (String.join (set.apply (Text.lines text)))) false) := by
  obtain ⟨_, _, _, ⟨other, former, same, before, after⟩, _⟩ := commitFile_ok ⟨set, kept⟩ commit
  rw [kept] at same
  rw [found] at before
  cases same
  cases before
  exact after

theorem resolve_written {policy : Policy σ} {p : Pending} {d : Disk} {state : σ} {final : Run σ}
    {path : Path} {set : ChangeSet} {text : String} (found : p.get? path = some set)
    (read : d.readText path = .ok text)
    (resolved : resolve policy ⟨p, d, state⟩ path = (.ok true, final)) :
    final.pending.get? path = none ∧
      final.disk.readText path = .ok (String.join (set.apply (Text.lines text))) := by
  obtain ⟨_, declined⟩ | ⟨next, disk, state, commit, _, written⟩ | ⟨_, _, _, failed⟩ :=
    resolve_cases policy ⟨p, d, state⟩ path
  · rw [declined] at resolved
    cases resolved
  · rw [written] at resolved
    cases resolved
    obtain ⟨cleared, absent | ⟨kept, former, present, before, put⟩⟩ := commitFile_cases commit
    · rw [get?_eq_some found] at absent
      cases absent.1
    · rw [get?_eq_some found] at present
      cases present
      rw [read] at before
      cases before
      exact ⟨by simp [cleared, get?, get?_sets_discard], Disk.readText_writeLocked read put⟩
  · rw [failed] at resolved
    cases resolved

theorem resolve_accepted {policy : Policy σ} {state : σ}
    (kept : p.get? path = some set)
    (found : d.find path = .ok (name, .file (.text text) false))
    (accepts : (policy.ask state (p.request path p.affectedFiles.length)).1.accept = true) :
    (resolve policy ⟨p, d, state⟩ path).1 = .ok true := by
  rcases asked : policy.ask state (p.request path p.affectedFiles.length) with
    ⟨⟨accept, forAll⟩, later⟩
  rw [asked] at accepts
  cases accepts
  simp [resolve, isPending, kept, asked, commitFile_eq (get?_eq_some kept) found]

-- Before these files of a batch, this one has its changes and its text, and no other of them names
-- it.
structure Stands (p : Pending) (d : Disk) (files : List Path) (path : Path) (set : ChangeSet)
    (name : FullName) (text : String) (isLocked : Bool) : Prop where
  routes : files.Pairwise fun a b => ¬ a.Same b
  kept : p.sets.get? path.route = some set
  found : d.find path = .ok (name, .file (.text text) isLocked)
  alone : ∀ file ∈ files, ¬ file.Same path → d.Apart path file

namespace Stands

variable {first : Path} {rest : List Path}

theorem tail (stands : Stands p d (first :: rest) path set name text isLocked) :
    Stands p d rest path set name text isLocked where
  routes := stands.routes.of_cons
  kept := stands.kept
  found := stands.found
  alone file member := stands.alone file (List.mem_cons_of_mem _ member)

theorem fresh (stands : Stands p d (path :: rest) path set name text isLocked) : path ∉ rest :=
  fun member => (List.pairwise_cons.1 stands.routes).1 path member rfl

variable {next : Pending} {e : Disk}

theorem after_commit (stands : Stands p d (first :: rest) path set name text isLocked)
    (commit : p.commitFile d first = .ok (next, e)) (member : path ∈ rest) :
    Stands next e rest path set name text isLocked := by
  have writes := writes_commitFile commit
  have other : ¬ first.Same path := (List.pairwise_cons.1 stands.routes).1 path member
  have apart : d.Apart path first := stands.alone first (List.mem_cons_self ..) other
  refine ⟨stands.routes.of_cons, ?_, ?_, ?_⟩
  · rw [(commitFile_cases commit).1, get?_sets_discard, if_neg fun same => other same.symm,
      stands.kept]
  · rw [writes.find_eq_of_apart (List.forall_mem_singleton.2 apart), stands.found]
  · exact fun file member other => writes.shape.apart_iff.2 (stands.tail.alone file member other)

-- The files after this one have other routes, so they leave it as its own commit writes it.
theorem written (stands : Stands p d (path :: rest) path set name text isLocked)
    (commit : p.commitFile d path = .ok (next, e)) {f : Disk} {paths : List Path}
    (later : Disk.Writes e f paths) (listed : paths ⊆ rest) : f.find path =
      .ok (name, .file (.text (String.join (set.apply (Text.lines text)))) false) := by
  rw [later.find_eq_of_apart fun file wrote => ?_,
    find_commitFile stands.kept stands.found commit]
  have member := listed wrote
  refine (writes_commitFile commit).shape.apart_iff.2 (stands.tail.alone file member ?_)
  exact fun same => (List.pairwise_cons.1 stands.routes).1 file member same.symm

end Stands

theorem Batch.written {policy : Policy σ} {affected : Nat} {standing : Option Bool}
    {run final : Run σ} {files : List Path} {report : ResolveReport}
    (batch : Batch policy affected standing run files report final)
    (stands : Stands run.pending run.disk files path set name text isLocked)
    (listed : path ∈ files) :
    (path ∈ report.committed → final.disk.find path =
      .ok (name, .file (.text (String.join (set.apply (Text.lines text)))) false)) ∧
    (path ∉ report.rejected → isLocked = false → path ∈ report.committed) := by
  induction batch with
  | done => cases listed
  | declined answer later ih =>
      rcases List.mem_cons.1 listed with rfl | member
      · exact ⟨fun wrote => absurd (later.sublists.1.subset wrote) stands.fresh,
          fun accepted => absurd (List.mem_cons_self ..) accepted⟩
      · have ⟨only, all⟩ := ih stands.tail member
        exact ⟨only, fun accepted => all (mt (List.mem_cons_of_mem _) accepted)⟩
  | @committed _ _ _ _ _ first _ _ _ _ answer commit later ih =>
      rcases List.mem_cons.1 listed with rfl | member
      · exact ⟨fun _ => stands.written commit later.writes later.sublists.1.subset,
          fun _ _ => List.mem_cons_self ..⟩
      · have ⟨only, all⟩ := ih (stands.after_commit commit member) member
        have other : path ≠ first := fun same => (same ▸ stands).fresh (same ▸ member)
        exact ⟨fun wrote => only ((List.mem_cons.1 wrote).resolve_left other),
          fun accepted unlocked => List.mem_cons_of_mem _ (all accepted unlocked)⟩
  | failed answer commit later ih =>
      rcases List.mem_cons.1 listed with rfl | member
      · refine ⟨fun wrote => absurd (later.sublists.1.subset wrote) stands.fresh,
          fun _ unlocked => ?_⟩
        rw [commitFile_eq stands.kept (unlocked ▸ stands.found)] at commit
        cases commit
      · exact ih stands.tail member

end Commit

def Alone (p : Pending) (d : Disk) (path : Path) : Prop :=
  ∀ file ∈ p.affectedFiles, ¬ file.Same path → d.Apart path file

-- A commit that writes the file leaves it with this text and forgets its changes: a commit of the
-- file alone, and one of all pending files. Unless the file is locked, it is written if the policy
-- accepts.
structure CommitsTo (p : Pending) (d : Disk) (path : Path) (written : String) : Prop where
  one : ∀ (σ : Type) (policy : Policy σ) (state : σ),
    let (result, final) := resolve policy ⟨p, d, state⟩ path
    (result = .ok true →
      final.disk.readText path = .ok written ∧ final.pending.get? path = none) ∧
    ((policy.ask state (p.request path p.affectedFiles.length)).1.accept = true →
      ¬ d.IsLocked path → result = .ok true)
  all : Alone p d path → ∀ (σ : Type) (policy : Policy σ) (state : σ),
    let (report, final) := resolveAll policy ⟨p, d, state⟩
    (path ∈ report.committed →
      final.disk.readText path = .ok written ∧ final.pending.get? path = none) ∧
    (path ∉ report.rejected → ¬ d.IsLocked path → path ∈ report.committed)

structure Untouched (p : Pending) (d : Disk) (path : Path) : Prop where
  idle : p.get? path = none
  one : ∀ (σ : Type) (policy : Policy σ) (state : σ),
    resolve policy ⟨p, d, state⟩ path = (.ok false, ⟨p, d, state⟩)
  all : Alone p d path → ∀ (σ : Type) (policy : Policy σ) (state : σ),
    (resolveAll policy ⟨p, d, state⟩).2.disk.find path = d.find path

theorem Sound.commitsTo (sound : p.Sound) {set : ChangeSet} {text : String}
    (kept : p.get? path = some set) (listed : path ∈ p.affectedFiles)
    (read : d.readText path = .ok text) :
    CommitsTo p d path (String.join (set.apply (Text.lines text))) := by
  obtain ⟨name, isLocked, found⟩ := Disk.readText_eq_ok_iff.1 read
  have unlocked : ¬ d.IsLocked path → isLocked = false := fun free => by
    cases isLocked with
    | false => rfl
    | true => exact absurd ⟨name, _, found⟩ free
  constructor
  · intro σ policy state
    have accepted : (policy.ask state (p.request path p.affectedFiles.length)).1.accept = true →
        ¬ d.IsLocked path → (resolve policy ⟨p, d, state⟩ path).1 = .ok true :=
      fun accepts free => resolve_accepted kept (unlocked free ▸ found) accepts
    rcases resolved : resolve policy ⟨p, d, state⟩ path with ⟨result, final⟩
    rw [resolved] at accepted
    refine ⟨fun wrote => ?_, accepted⟩
    cases wrote
    exact (resolve_written kept read resolved).symm
  · intro alone σ policy state
    have batch := batch_resolveEach policy p.affectedFiles.length none ⟨p, d, state⟩
      p.affectedFiles
    have ⟨only, all⟩ :=
      batch.written ⟨sound.affectedFiles_routes, get?_eq_some kept, found, alone⟩ listed
    refine ⟨fun wrote => ⟨Disk.readText_eq_ok_iff.2 ⟨name, false, only wrote⟩, ?_⟩,
      fun accepted free => all accepted (unlocked free)⟩
    exact (batch.get?_eq path).trans (if_pos ⟨path, wrote, rfl⟩)

theorem Sound.untouched (sound : p.Sound) (d : Disk) (idle : p.get? path = none) :
    Untouched p d path where
  idle := idle
  one σ policy state := by simp [resolve, isPending, idle]
  all alone σ policy state := by
    have batch := batch_resolveEach policy p.affectedFiles.length none ⟨p, d, state⟩
      p.affectedFiles
    refine batch.writes.find_eq_of_apart fun file done => ?_
    have listed := batch.sublists.1.subset done
    refine alone file listed fun same => ?_
    obtain ⟨set, kept⟩ := (sound.mem_affectedFiles path).1 ⟨file, listed, same⟩
    rw [idle] at kept
    cases kept

end Pending

end LineLedger
