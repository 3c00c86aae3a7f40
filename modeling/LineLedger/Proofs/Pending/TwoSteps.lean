import LineLedger.Proofs.Change.Parts
import LineLedger.Proofs.Pending.Remade

set_option autoImplicit false

namespace LineLedger

namespace Disk

variable {d e : Disk}

theorem SameShape.entry_eq (shape : SameShape d e) (p : Path) : e.entry p = d.entry p := by
  simp only [entry, origin, shape.working, shape.follow_eq]
  cases acceptSpelling p with
  | error fault => rfl
  | ok accepted =>
      simp only [bind, Except.bind]
      split
      · rfl
      · rename_i folder reached
        have present := shape.present folder
        have folders := shape.folders folder
        rcases left : e.node? folder with _ | _ | _ <;>
          rcases right : d.node? folder with _ | _ | _ <;> simp_all

theorem setNode_setNode {name : FullName} {old new : Content} {before after : Bool}
    (file : d.node? name = some (.file old before)) (node : Node) :
    (d.setNode name (.file new after)).setNode name node = d.setNode name node := by
  have there : (d.setNode name (.file new after)).node? name = some (.file new after) := by
    rw [node?_setNode file, if_pos rfl]
  refine congrArg (Disk.mk · d.working d.settings) (FileTree.ext_node? fun other => ?_)
  change ((d.setNode name (.file new after)).setNode name node).node? other =
    (d.setNode name node).node? other
  rw [node?_setNode there, node?_setNode file, node?_setNode file]
  split <;> rfl

section Write

variable {p : Path}

theorem openForWriting_setNode {name : FullName} {old content : Content} {before isLocked : Bool}
    (file : d.node? name = some (.file old before))
    (opened : d.openForWriting p = .ok (name, content, isLocked)) (new : Content) (after : Bool) :
    (d.setNode name (.file new after)).openForWriting p = .ok (name, new, after) := by
  obtain ⟨e, entered, plain, slash, short, _, rfl⟩ := openForWriting_eq_ok opened
  have entered : (d.setNode e.fullName (.file new after)).entry p = .ok e := by
    rw [(sameShape_setNode file).entry_eq, entered]
  simp [openForWriting, entered, plain, slash, lookUp, short, node?_setNode file, bind, Except.bind]

theorem writeLocked_eq_ok {text : String} (written : d.writeLocked p text = .ok e) :
    ∃ name content, d.openForWriting p = .ok (name, content, false) ∧
      e = d.setNode name (.file (.text text) false) := by
  rw [writeLocked] at written
  split at written
  · cases written
  · rename_i name content isLocked opened
    cases isLocked with
    | true => cases written
    | false =>
        cases written
        exact ⟨name, content, opened, rfl⟩

theorem writeLocked_writeLocked {former first : String} (read : d.readText p = .ok former)
    (written : d.writeLocked p first = .ok e) (second : String) :
    e.writeLocked p second = d.writeLocked p second := by
  obtain ⟨name, content, opened, rfl⟩ := writeLocked_eq_ok written
  obtain ⟨found, isLocked, there⟩ := readText_eq_ok_iff.1 read
  obtain ⟨located, file⟩ := find_eq_ok_iff.1 there
  rw [locate_of_openForWriting opened] at located
  cases located
  have again := openForWriting_setNode file opened (.text first) false
  simp [writeLocked, opened, again, setNode_setNode file]

end Write

def put (d : Disk) (path : Path) (changes : List Change) : Except Failure Disk := do
  let text ← d.readText path
  d.writeLocked path (String.join ((ChangeSet.ofChanges path changes).apply (Text.lines text)))

theorem put_below_above {path : Path} {changes : List Change} (made : ∀ c ∈ changes, c.IsMade)
    (oneLine : (ChangeSet.ofChanges path changes).OneLine) {k : Nat}
    (first : d.put path (Change.below k changes) = .ok e) :
    ∃ f, e.put path (Change.above k changes) = .ok f ∧ d.put path changes = .ok f := by
  obtain ⟨text, read, written⟩ := bind_eq_ok.1 first
  have reread := readText_writeLocked read written
  obtain ⟨name, content, opened, _⟩ := writeLocked_eq_ok written
  have whole (second : String) : d.writeLocked path second =
      .ok (d.setNode name (.file (.text second) false)) := by
    simp [writeLocked, opened]
  simp only [put, read, reread, bind, Except.bind, ChangeSet.apply_below_above made oneLine,
    writeLocked_writeLocked read written, whole]
  exact ⟨_, rfl, rfl⟩

theorem put_unlocked {path : Path} {text : String}
    (unlocked : d.Unlocked path text) (changes : List Change) :
    ∃ e, d.put path changes = .ok e ∧ e.readText path = .ok (String.join
      ((ChangeSet.ofChanges path changes).apply (Text.lines text))) := by
  obtain ⟨name, found⟩ := unlocked
  have read : d.readText path = .ok text := readText_eq_ok_iff.2 ⟨name, false, found⟩
  have written := writeLocked_eq found
    (String.join ((ChangeSet.ofChanges path changes).apply (Text.lines text)))
  refine ⟨_, ?_, readText_writeLocked read written⟩
  simp only [put, read, bind, Except.bind, written]
  rfl

end Disk

namespace Pending

variable {p : Pending} {path : Path}

def recordAll (p : Pending) (path : Path) (changes : List Change) : Pending :=
  changes.foldl (fun p c => p.record path c) p

theorem get?_recordAll (p : Pending) (path : Path) (changes : List Change) (route : Route) :
    (p.recordAll path changes).sets.get? route =
      if route = path.route ∧ changes ≠ [] then
        some (changes.foldl ChangeSet.record ((p.sets.get? path.route).getD (.empty path)))
      else p.sets.get? route := by
  induction changes generalizing p with
  | nil => simp [recordAll]
  | cons c rest ih =>
      have next := ih (p.record path c)
      rw [recordAll, List.foldl_cons, ← recordAll, next, get?_sets_record, get?_sets_record]
      by_cases here : route = path.route <;> cases rest <;> simp [here]

theorem recordAll_below_above (p : Pending) (path : Path) (changes : List Change) (k : Nat) :
    (p.recordAll path (Change.below k changes)).recordAll path (Change.above k changes) =
      p.recordAll path changes := by
  have same (set : ChangeSet) : (Change.below k changes ++ Change.above k changes).foldl
      ChangeSet.record set = changes.foldl ChangeSet.record set := by
    refine ChangeSet.ext_get? ?_ fun line => ?_
    · simp only [ChangeSet.path_foldl_record]
    · simp only [ChangeSet.get?_foldl_record, Change.latestAt_below_above]
  have sets : (p.recordAll path (Change.below k changes ++ Change.above k changes)).sets =
      (p.recordAll path changes).sets := by
    apply Table.ext_get?
    intro route
    simp only [get?_recordAll, same, ne_eq, Change.below_append_above_eq_nil]
  rw [recordAll, recordAll, ← List.foldl_append, ← recordAll]
  exact congrArg Pending.mk sets

section Idle

variable (idle : p.sets.get? path.route = none)

include idle

theorem discard_recordAll (changes : List Change) :
    ((p.recordAll path changes).discard path).2 = p := by
  refine congrArg Pending.mk (Table.ext_get? fun route => ?_)
  rw [Table.get?_erase, get?_recordAll]
  by_cases here : route = path.route <;> simp [here, idle]

theorem sets_recordAll {changes : List Change} (some : changes ≠ []) :
    (p.recordAll path changes).sets.get? path.route =
      Option.some (ChangeSet.ofChanges path changes) := by
  rw [get?_recordAll, if_pos ⟨rfl, some⟩, idle]
  rfl

theorem isPending_recordAll {changes : List Change} (some : changes ≠ []) :
    (p.recordAll path changes).isPending path = true := by
  simp [isPending, get?, sets_recordAll idle some, ChangeSet.isEmpty_ofChanges path some]

theorem commitFile_recordAll {changes : List Change} (some : changes ≠ []) (d : Disk) :
    (p.recordAll path changes).commitFile d path = (d.put path changes).map fun e => (p, e) := by
  have cleared : Pending.mk ((p.recordAll path changes).sets.erase path.route) = p :=
    discard_recordAll idle changes
  rw [commitFile, sets_recordAll idle some, Disk.put]
  simp only [cleared]
  cases d.readText path with
  | error failure => rfl
  | ok text =>
      simp only [bind, Except.bind]
      generalize d.writeLocked path _ = written
      cases written <;> rfl

end Idle

variable {σ : Type}

theorem resolve_of_accepts {policy : Policy σ} (accepts : policy.Accepts) {d : Disk}
    (pending : p.isPending path = true) (state : σ) :
    ∃ later, resolve policy ⟨p, d, state⟩ path =
      match p.commitFile d path with
      | .ok (next, e) => (.ok true, ⟨next, e, later⟩)
      | .error failure => (.error failure, ⟨p, d, later⟩) := by
  have yes := accepts state (p.request path p.affectedFiles.length)
  rcases asked : policy.ask state (p.request path p.affectedFiles.length) with
    ⟨⟨accept, forAll⟩, later⟩
  rw [asked] at yes
  cases yes
  refine ⟨later, ?_⟩
  cases committed : p.commitFile d path <;> simp [resolve, pending, asked, committed]

def commitChanges (policy : Policy σ) (run : Run σ) (path : Path) (changes : List Change) :
    Except Failure Bool × Run σ :=
  resolve policy { run with pending := run.pending.recordAll path changes } path

section Steps

variable {policy : Policy σ} (idle : p.sets.get? path.route = none)

include idle

theorem commitChanges_nil (d : Disk) (state : σ) :
    commitChanges policy ⟨p, d, state⟩ path [] = (.ok false, ⟨p, d, state⟩) := by
  simp [commitChanges, recordAll, resolve, isPending, get?, idle]

variable (accepts : policy.Accepts)

include accepts

theorem commitChanges_eq {changes : List Change} (some : changes ≠ []) (d : Disk) (state : σ) :
    ∃ later, commitChanges policy ⟨p, d, state⟩ path changes =
      match d.put path changes with
      | .ok e => (.ok true, ⟨p, e, later⟩)
      | .error failure => (.error failure, ⟨p.recordAll path changes, d, later⟩) := by
  have pending := isPending_recordAll idle some
  obtain ⟨later, resolved⟩ := resolve_of_accepts accepts (d := d) pending state
  refine ⟨later, resolved.trans ?_⟩
  rw [commitFile_recordAll idle some]
  cases d.put path changes <;> rfl

end Steps

structure SameOutcome (a b : Except Failure Bool × Run σ) : Prop where
  disk : a.2.disk = b.2.disk
  pending : a.2.pending = b.2.pending
  failure : ∀ failure, a.1 = .error failure ↔ b.1 = .error failure

theorem sameOutcome_below_above {policy : Policy σ} (accepts : policy.Accepts)
    (idle : p.sets.get? path.route = none) {changes : List Change}
    (made : ∀ c ∈ changes, c.IsMade) (oneLine : (ChangeSet.ofChanges path changes).OneLine)
    (k : Nat) (d : Disk) (state : σ) :
    SameOutcome
      (commitChanges policy (commitChanges policy ⟨p, d, state⟩ path (Change.below k changes)).2
        path (Change.above k changes))
      (commitChanges policy ⟨p, d, state⟩ path changes) := by
  by_cases noneLow : Change.below k changes = []
  · rw [noneLow, commitChanges_nil idle, Change.above_eq_self noneLow]
    exact ⟨rfl, rfl, fun _ => .rfl⟩
  · have some : changes ≠ [] := fun none => noneLow (by simp [none, Change.below])
    obtain ⟨later, first⟩ := commitChanges_eq idle accepts noneLow d state
    obtain ⟨_, whole⟩ := commitChanges_eq idle accepts some d state
    cases low : d.put path (Change.below k changes) with
    | error failure =>
        -- The changes of the first step are still pending, and the second step commits them all.
        obtain ⟨_, second⟩ := commitChanges_eq idle accepts some d later
        rw [commitChanges] at second
        simp only [low] at first
        rw [first, whole, commitChanges]
        simp only [recordAll_below_above, second]
        cases d.put path changes <;> exact ⟨rfl, rfl, fun _ => .rfl⟩
    | ok e =>
        simp only [low] at first
        rw [first, whole]
        by_cases noneHigh : Change.above k changes = []
        · rw [noneHigh, commitChanges_nil idle, ← Change.below_eq_self noneHigh, low]
          exact ⟨rfl, rfl, fun _ => by simp⟩
        · obtain ⟨_, second⟩ := commitChanges_eq idle accepts noneHigh e later
          obtain ⟨f, high, once⟩ := Disk.put_below_above made oneLine low
          rw [second, high, once]
          exact ⟨rfl, rfl, fun _ => .rfl⟩

theorem commit_in_two_steps {policy : Policy σ} (accepts : policy.Accepts)
    (reachable : p.Reachable) (idle : p.get? path = none) {changes : List Change}
    (made : ∀ c ∈ changes, c.IsMade) (oneLine : (ChangeSet.ofChanges path changes).OneLine)
    (k : Nat) (d : Disk) (state : σ) :
    let low := ChangeSet.ofChanges path (Change.below k changes)
    let high := ChangeSet.ofChanges path (Change.above k changes)
    let set := ChangeSet.ofChanges path changes
    let halfway := (commitChanges policy ⟨p, d, state⟩ path (Change.below k changes)).2
    let twice := commitChanges policy halfway path (Change.above k changes)
    let once := commitChanges policy ⟨p, d, state⟩ path changes
    (∀ text, String.join (high.apply (Text.lines (String.join (low.apply (Text.lines text))))) =
      String.join (set.apply (Text.lines text))) ∧
    SameOutcome twice once ∧
    ∀ text, d.Unlocked path text → twice.2.pending = p ∧
      twice.2.disk.readText path = .ok (String.join (set.apply (Text.lines text))) := by
  have absent : p.sets.get? path.route = none := reachable.sound.get?_eq path ▸ idle
  have same := sameOutcome_below_above accepts absent made oneLine k d state
  refine ⟨fun text => congrArg String.join (ChangeSet.apply_below_above made oneLine k text), same,
    fun text unlocked => ?_⟩
  have once : (commitChanges policy ⟨p, d, state⟩ path changes).2.pending = p ∧
      (commitChanges policy ⟨p, d, state⟩ path changes).2.disk.readText path =
        .ok (String.join ((ChangeSet.ofChanges path changes).apply (Text.lines text))) := by
    by_cases none : changes = []
    · rw [none, commitChanges_nil absent]
      exact ⟨rfl, unlocked.readText.trans (congrArg Except.ok (Text.join_lines text).symm)⟩
    · obtain ⟨_, whole⟩ := commitChanges_eq absent accepts none d state
      obtain ⟨e, written, read⟩ := Disk.put_unlocked unlocked changes
      rw [whole, written]
      exact ⟨rfl, read⟩
  exact ⟨same.pending.trans once.1, same.disk ▸ once.2⟩

-- The insertion of the first step moves the line that the deletion of the second one blanks, and
-- the last line is ended only then.
def memo : Disk :=
  ⟨⟨.ofList [(["notes"], .file (.text "one\ntwo") false)], by decide +kernel⟩, [], ⟨""⟩⟩

def memoChanges : List Change :=
  [.replacing 5 none "six", .insertion 0 "zero", .deletion 1 none, .insertion 5 "five"]

theorem commit_in_two_steps_memo :
    (Policy.acceptAll : Policy Unit).Accepts ∧ empty.Reachable ∧ empty.get? ⟨"notes"⟩ = none ∧
    (∀ c ∈ memoChanges, c.IsMade) ∧ (ChangeSet.ofChanges ⟨"notes"⟩ memoChanges).OneLine ∧
    memo.Unlocked ⟨"notes"⟩ "one\ntwo" ∧
    let halfway :=
      (commitChanges .acceptAll ⟨empty, memo, ()⟩ ⟨"notes"⟩ (Change.below 1 memoChanges)).2
    let twice := commitChanges .acceptAll halfway ⟨"notes"⟩ (Change.above 1 memoChanges)
    halfway.disk.readText ⟨"notes"⟩ = .ok "zero\none\ntwo" ∧
      twice.2.pending = empty ∧ twice.2.disk.readText ⟨"notes"⟩ = .ok "zero\n\ntwo\nfive\n" := by
  have reachable : empty.Reachable := ⟨[], rfl⟩
  have made : ∀ c ∈ memoChanges, c.IsMade := by
    simp only [memoChanges, List.forall_mem_cons]
    exact ⟨⟨_, _, _, _, rfl⟩, ⟨_, _, _, _, rfl⟩, ⟨_, _, _, _, rfl⟩, ⟨_, _, _, _, rfl⟩, by simp⟩
  have oneLine : (ChangeSet.ofChanges ⟨"notes"⟩ memoChanges).OneLine := by decide
  have unlocked : memo.Unlocked ⟨"notes"⟩ "one\ntwo" := ⟨["notes"], rfl⟩
  obtain ⟨_, _, written⟩ :=
    commit_in_two_steps Policy.accepts_acceptAll reachable rfl made oneLine 1 memo ()
  obtain ⟨pending, read⟩ := written "one\ntwo" unlocked
  exact ⟨Policy.accepts_acceptAll, reachable, rfl, made, oneLine, unlocked, rfl, pending, read⟩

end Pending

end LineLedger
