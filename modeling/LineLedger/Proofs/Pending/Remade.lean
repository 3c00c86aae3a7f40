import LineLedger.Proofs.Pending.Accepted
import LineLedger.Proofs.Pending.Inline

set_option autoImplicit false

namespace LineLedger

namespace Disk

variable {d e f : Disk} {paths : List Path} {make make' : String → String}

def Unlocked (d : Disk) (path : Path) (text : String) : Prop :=
  ∃ name, d.find path = .ok (name, .file (.text text) false)

theorem Unlocked.readText {path : Path} {text : String} (unlocked : d.Unlocked path text) :
    d.readText path = .ok text :=
  unlocked.elim fun name found => readText_eq_ok_iff.2 ⟨name, false, found⟩

-- The texts that the paths name were each put through `make`, unless they are locked.
structure Remade (paths : List Path) (make : String → String) (d e : Disk) : Prop where
  shape : SameShape d e
  settings : e.settings = d.settings
  made : ∀ path ∈ paths, ∀ name text, d.find path = .ok (name, .file (.text text) false) →
    e.find path = .ok (name, .file (.text (make text)) false)
  kept : ∀ name, (∀ path ∈ paths, ∀ text, d.find path ≠ .ok (name, .file (.text text) false)) →
    e.node? name = d.node? name

namespace Remade

theorem readText_eq (remade : Remade paths make d e) {path : Path} (listed : path ∈ paths)
    {text : String} (unlocked : d.Unlocked path text) : e.readText path = .ok (make text) :=
  unlocked.elim fun name found =>
    readText_eq_ok_iff.2 ⟨name, false, remade.made path listed name text found⟩

theorem trans (first : Remade paths make d e) (second : Remade paths make' e f) :
    Remade paths (make' ∘ make) d f where
  shape := first.shape.trans second.shape
  settings := second.settings.trans first.settings
  made path listed name text found :=
    second.made path listed name (make text) (first.made path listed name text found)
  kept name free := by
    have still := first.kept name free
    refine (second.kept name fun path listed text found => ?_).trans still
    obtain ⟨located, node⟩ := find_eq_ok_iff.1 found
    rw [first.shape.locate_eq] at located
    exact free path listed text (find_eq_ok_iff.2 ⟨located, still ▸ node⟩)

theorem unlocked (remade : Remade paths make d e) {path : Path} {text : String}
    (after : e.Unlocked path text) : ∃ former, d.Unlocked path former := by
  obtain ⟨name, found⟩ := after
  obtain ⟨located, node⟩ := find_eq_ok_iff.1 found
  rw [remade.shape.locate_eq] at located
  by_cases named : ∃ path ∈ paths, ∃ text, d.find path = .ok (name, .file (.text text) false)
  · obtain ⟨other, _, former, before⟩ := named
    exact ⟨former, name, find_eq_ok_iff.2 ⟨located, (find_eq_ok_iff.1 before).2⟩⟩
  · have still := remade.kept name fun path listed text found => named ⟨path, listed, text, found⟩
    exact ⟨text, name, find_eq_ok_iff.2 ⟨located, still ▸ node⟩⟩

theorem node?_eq (remade : Remade paths make d e) (remade' : Remade paths make' d f)
    (same : ∀ path ∈ paths, ∀ text, d.Unlocked path text → make' text = make text)
    (name : FullName) : f.node? name = e.node? name := by
  by_cases named : ∃ path ∈ paths, ∃ text, d.find path = .ok (name, .file (.text text) false)
  · obtain ⟨path, listed, text, found⟩ := named
    have here := (find_eq_ok_iff.1 (remade.made path listed name text found)).2
    have there := (find_eq_ok_iff.1 (remade'.made path listed name text found)).2
    rw [here, there, same path listed text ⟨name, found⟩]
  · have free : ∀ path ∈ paths, ∀ text, d.find path ≠ .ok (name, .file (.text text) false) :=
      fun path listed text found => named ⟨path, listed, text, found⟩
    rw [remade.kept name free, remade'.kept name free]

-- Two disks that came from one hold the same texts just if each text was made the same of.
theorem readText_eq_iff (remade : Remade paths make d e) (remade' : Remade paths make' d f) :
    (∀ path, f.readText path = e.readText path) ↔
      ∀ path ∈ paths, ∀ text, d.Unlocked path text → make' text = make text := by
  refine ⟨fun same path listed text unlocked => ?_, fun same path => ?_⟩
  · have texts := same path
    rw [remade.readText_eq listed unlocked, remade'.readText_eq listed unlocked] at texts
    exact Except.ok.inj texts
  · have found : f.find path = e.find path := by
      rw [find, find, remade.shape.locate_eq, remade'.shape.locate_eq]
      simp only [remade.node?_eq remade' same]
    rw [readText, readText, readContent, readContent, found]

end Remade

structure Distinct (d : Disk) (paths : List Path) : Prop where
  routes : paths.Pairwise fun a b => ¬ a.Same b
  apart : paths.Pairwise d.Apart

namespace Distinct

variable {a b : Path}

theorem eq_of_same (distinct : d.Distinct paths) (first : a ∈ paths) (second : b ∈ paths)
    (same : a.Same b) : a = b := by
  have : Std.Symm fun a b : Path => ¬ a.Same b := ⟨fun _ _ apart same => apart same.symm⟩
  exact Decidable.byContradiction fun other => distinct.routes.forall first second other same

theorem apart_of_ne (distinct : d.Distinct paths) (first : a ∈ paths) (second : b ∈ paths)
    (other : a ≠ b) : d.Apart a b := by
  have : Std.Symm d.Apart := ⟨fun _ _ apart name there here => apart name here there⟩
  exact distinct.apart.forall first second other

theorem of_sameShape (distinct : d.Distinct paths) (shape : SameShape d e) : e.Distinct paths where
  routes := distinct.routes
  apart := distinct.apart.imp fun apart => shape.apart_iff.2 apart

end Distinct

end Disk

variable {σ : Type}

def Policy.Accepts (policy : Policy σ) : Prop :=
  ∀ state request, (policy.ask state request).1.accept = true

theorem Policy.accepts_acceptAll : (acceptAll : Policy σ).Accepts := fun _ _ => rfl

theorem Policy.Accepts.consult {policy : Policy σ} (accepts : policy.Accepts)
    {standing next : Option Bool} (willing : standing ≠ some false) {state later : σ}
    {request : ConfirmRequest} {accept : Bool}
    (answer : policy.consult standing state request = (accept, next, later)) :
    accept = true ∧ next ≠ some false := by
  cases standing with
  | some stands =>
      cases answer
      cases accept with
      | true => exact ⟨rfl, willing⟩
      | false => exact absurd rfl willing
  | none =>
      have yes := accepts state request
      cases answer
      refine ⟨yes, ?_⟩
      rw [yes]
      split <;> simp

theorem Disk.settings_writeLocked {d e : Disk} {path : Path} {text : String}
    (written : d.writeLocked path text = .ok e) : e.settings = d.settings := by
  rw [writeLocked] at written
  split at written
  · cases written
  · split at written
    · cases written
    · cases written
      rfl

namespace Pending

theorem settings_commitFile {p next : Pending} {d e : Disk} {path : Path}
    (commit : p.commitFile d path = .ok (next, e)) : e.settings = d.settings := by
  obtain ⟨_, ⟨_, rfl⟩ | ⟨set, text, _, _, written⟩⟩ := commitFile_cases commit
  · rfl
  · exact Disk.settings_writeLocked written

theorem Batch.rejected_eq_nil {policy : Policy σ} (accepts : policy.Accepts) {affected : Nat}
    {standing : Option Bool} (willing : standing ≠ some false) {run final : Run σ}
    {files : List Path} {report : ResolveReport}
    (batch : Batch policy affected standing run files report final) : report.rejected = [] := by
  induction batch with
  | done => rfl
  | declined answer later ih => exact absurd (accepts.consult willing answer).1 (by simp)
  | committed answer commit later ih => exact ih (accepts.consult willing answer).2
  | failed answer commit later ih => exact ih (accepts.consult willing answer).2

theorem Batch.settings_eq {policy : Policy σ} {affected : Nat} {standing : Option Bool}
    {run final : Run σ} {files : List Path} {report : ResolveReport}
    (batch : Batch policy affected standing run files report final) :
    final.disk.settings = run.disk.settings := by
  induction batch with
  | done => rfl
  | declined answer later ih => exact ih
  | committed answer commit later ih => exact ih.trans (settings_commitFile commit)
  | failed answer commit later ih => exact ih

-- The pending changes are edits by the rule, of every line of the texts that can be written.
structure Queues (p : Pending) (rule : List Char → Option (List Char)) (d : Disk)
    (paths : List Path) : Prop where
  sound : p.Sound
  distinct : d.Distinct paths
  listed : p.affectedFiles ⊆ paths
  edits : ∀ path ∈ paths, ∀ text, d.Unlocked path text → ∀ place,
    p.changeAt path place = (Text.lines text)[place]?.bind (edit? rule place)

variable {p : Pending} {rule : List Char → Option (List Char)} {d : Disk} {paths : List Path}

section Queues

variable {path : Path} {text : String}

theorem renameText_of_idle (idle : p.get? path = none) (edits : ∀ place,
    p.changeAt path place = (Text.lines text)[place]?.bind (edit? rule place)) :
    renameText rule text = text := by
  have kept : ∀ line ∈ Text.lines text, renamedLine rule line = line := by
    intro line member
    obtain ⟨place, present⟩ := List.mem_iff_getElem?.1 member
    have unchanged := edits place
    rw [changeAt, idle, Option.bind_none, present, Option.bind_some, edit?] at unchanged
    rw [renamedLine, Option.map_eq_none_iff.1 unchanged.symm]
  rw [renameText, List.map_congr_left kept, List.map_id']
  exact Text.join_lines text

theorem Queues.apply_eq (queues : Queues p rule d paths) (listed : path ∈ paths)
    (unlocked : d.Unlocked path text) {set : ChangeSet} (kept : p.get? path = some set) :
    String.join (set.apply (Text.lines text)) = renameText rule text := by
  have orderly := queues.sound.orderly _ _ (get?_eq_some kept)
  refine congrArg String.join (apply_eq_map orderly fun place => ?_)
  rw [← queues.edits path listed text unlocked place, changeAt, kept, Option.bind_some]

theorem Queues.ready (queues : Queues p rule d paths) : Ready p d p.affectedFiles := by
  refine queues.sound.ready ?_
  refine List.Pairwise.imp_of_mem ?_ queues.sound.affectedFiles_routes
  intro a b first second routes
  refine queues.distinct.apart_of_ne (queues.listed first) (queues.listed second) ?_
  rintro rfl
  exact routes rfl

end Queues

section Batch

variable {policy : Policy σ} {affected : Nat} {standing : Option Bool} {state : σ}
  {report : ResolveReport} {final : Run σ}
  (batch : Batch policy affected standing ⟨p, d, state⟩ p.affectedFiles report final)

include batch

theorem Sound.of_batch (sound : p.Sound) : final.pending.Sound := by
  rw [batch.pending_eq]
  refine sound_foldl_after sound fun event member => ?_
  obtain ⟨path, _, rfl⟩ := List.mem_map.1 member
  trivial

theorem Sound.listed_of_batch (sound : p.Sound) :
    final.pending.affectedFiles ⊆ p.affectedFiles := by
  intro file listed
  obtain ⟨set, found, named⟩ := ((sound.of_batch batch).listed_iff file).1 listed
  rw [batch.get?_sets] at found
  split at found
  · cases found
  · exact (sound.listed_iff file).2 ⟨set, found, named⟩

variable (accepted : report.rejected = []) (queues : Queues p rule d paths)

include accepted queues

theorem Queues.committed {path : Path} (listed : path ∈ paths) {text : String}
    (unlocked : d.Unlocked path text) {set : ChangeSet} (kept : p.get? path = some set) :
    path ∈ report.committed := by
  have replaces := batch.replaces queues.ready
  obtain ⟨name, found⟩ := unlocked
  obtain ⟨file, member, same⟩ := (queues.sound.mem_affectedFiles path).2 ⟨set, kept⟩
  have here := queues.distinct.eq_of_same (queues.listed member) listed same
  have fate := batch.perm.mem_iff.2 (here ▸ member)
  rw [accepted, List.append_nil, List.mem_append] at fate
  exact fate.resolve_right fun failed => replaces.refused path failed name text found

-- No committed file is one that nothing is pending for.
omit accepted in
theorem Queues.unnamed {path : Path} (listed : path ∈ paths) (idle : p.get? path = none)
    {name : FullName} (named : d.Names path name) :
    ∀ file ∈ report.committed, ¬ d.Names file name := by
  intro file done
  have among : file ∈ p.affectedFiles := batch.sublists.1.subset done
  refine queues.distinct.apart_of_ne listed (queues.listed among) ?_ name named
  rintro rfl
  obtain ⟨set, kept⟩ := (queues.sound.mem_affectedFiles path).1 ⟨path, among, rfl⟩
  rw [idle] at kept
  cases kept

theorem Queues.remade : d.Remade paths (renameText rule) final.disk := by
  have replaces := batch.replaces queues.ready
  refine ⟨replaces.shape, batch.settings_eq, fun path listed name text found => ?_,
    fun name free => ?_⟩
  · have unlocked : d.Unlocked path text := ⟨name, found⟩
    cases kept : p.get? path with
    | some set =>
        have done := queues.committed batch accepted listed unlocked kept
        obtain ⟨_, _, _, former, before, after⟩ := replaces.written path done
        rw [get?_eq_some kept] at former
        cases former
        cases found.symm.trans before
        rw [← queues.apply_eq listed unlocked kept]
        exact after
    | none =>
        have unnamed := queues.unnamed batch listed kept ⟨_, _, found⟩
        rw [renameText_of_idle kept (queues.edits path listed text unlocked), ← found]
        refine replaces.shape.find_eq fun there located => ?_
        rw [(Disk.find_eq_ok_iff.1 found).1] at located
        cases located
        exact replaces.unchanged name unnamed
  · refine replaces.unchanged name fun file done named => ?_
    obtain ⟨_, _, text, _, before, _⟩ := replaces.written file done
    obtain ⟨content, isLocked, found⟩ := named
    cases found.symm.trans before
    exact free file (queues.listed (batch.sublists.1.subset done)) text before

theorem Queues.settled {path : Path} (listed : path ∈ paths) {text : String}
    (unlocked : d.Unlocked path text) : final.pending.get? path = none := by
  rw [batch.get?_eq]
  cases kept : p.get? path with
  | none => simp
  | some set =>
      have done := queues.committed batch accepted listed unlocked kept
      exact if_pos ⟨path, done, rfl⟩

end Batch

section Nothing

def nothing (_ : List Char) : Option (List Char) := none

theorem overridden_nothing : overridden nothing rule = rule := by
  funext text
  rw [overridden, nothing, Option.or_none]

theorem edit?_nothing (text : String) (place : Nat) :
    (Text.lines text)[place]?.bind (edit? nothing place) = none := by
  cases (Text.lines text)[place]? <;> rfl

theorem queues_nothing (sound : p.Sound) (idle : p.size = 0)
    (distinct : d.Distinct paths) : Queues p nothing d paths where
  sound
  distinct
  listed := by
    rw [affectedFiles_of_size idle]
    exact List.nil_subset paths
  edits path listed text unlocked place := by
    have none : p.get? path = none := by
      refine Option.eq_none_iff_forall_ne_some.2 fun set kept => ?_
      obtain ⟨file, member, _⟩ := (sound.mem_affectedFiles path).2 ⟨set, kept⟩
      rw [affectedFiles_of_size idle] at member
      cases member
    rw [edit?_nothing, changeAt, none, Option.bind_none]

theorem Queues.renameWith (queues : Queues p rule d paths)
    (later : List Char → Option (List Char)) :
    Queues (Pending.renameWith later d p paths).2 (overridden rule later) d paths where
  sound := queues.sound.renameWith later d paths
  distinct := queues.distinct
  listed file member := by
    rcases queues.sound.listed_renameWith d paths member with before | renamed
    · exact queues.listed before
    · rw [renameWith_fst] at renamed
      exact (List.mem_filter.1 renamed).1
  edits path listed text unlocked place := by
    rw [renameWith_snd, changeAt_renameFiles queues.sound d queues.distinct.routes listed, linesIn,
      unlocked.readText, queues.edits path listed text unlocked]
    cases (Text.lines text)[place]? with
    | none => rfl
    | some line =>
        simp only [Option.bind_some, edit?, overridden]
        cases later line.toList <;> rfl

theorem Queues.resolveAll (queues : Queues p rule d paths) {policy : Policy σ}
    (accepts : policy.Accepts) (state : σ) :
    let (_, final) := Pending.resolveAll policy ⟨p, d, state⟩
    d.Remade paths (renameText rule) final.disk ∧
      Queues final.pending nothing final.disk paths := by
  have batch := batch_resolveEach policy p.affectedFiles.length none ⟨p, d, state⟩ p.affectedFiles
  have accepted := batch.rejected_eq_nil accepts (by simp)
  have remade := queues.remade batch accepted
  refine ⟨remade, queues.sound.of_batch batch, queues.distinct.of_sameShape remade.shape, ?_,
    fun path listed text unlocked place => ?_⟩
  · exact fun file member => queues.listed (queues.sound.listed_of_batch batch member)
  · obtain ⟨former, before⟩ := remade.unlocked unlocked
    rw [edit?_nothing, changeAt, queues.settled batch accepted listed before, Option.bind_none]

end Nothing

end Pending

end LineLedger
