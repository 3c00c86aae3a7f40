import LineLedger.Proofs.Pending.Accepted
import LineLedger.Proofs.Session.Display
import LineLedger.Python.Parse

set_option autoImplicit false

namespace LineLedger

namespace Session

theorem preview_eq_committed [Python.Grammar] :
    (∀ (set : ChangeSet) (lines : List String), set.Recorded → set.KeepsPlaces lines.length →
      (set.overlay lines).values = set.apply lines) ∧
    ∀ (σ : Type) (policy : Policy σ) (state : σ) (s : Session) (d : Disk) (path : Path)
      (set : ChangeSet) (text : String) (run : Pending.Run σ),
      s.pending.get? path = some set → set.Recorded → d.readText path = .ok text →
      set.KeepsPlaces (Text.lines text).length → set.FillsUp (Text.lines text).length →
      Pending.resolve policy ⟨s.pending, d, state⟩ path = (.ok true, run) →
      let later := { (s.display d path).2 with pending := run.pending }
      ∃ shown written, (s.display d path).1 = .ok shown ∧
        (later.display run.disk path).1 = .ok written ∧
        shown.map Row.record = written.map Row.record := by
  constructor
  · intro set lines recorded keeps
    exact (set.recorded_iff_orderly.1 recorded).values_overlay keeps
  · intro σ policy state s d path set text run found recorded read keeps fills resolved later
    have orderly := set.recorded_iff_orderly.1 recorded
    obtain ⟨none, reread⟩ := Pending.resolve_written found read resolved
    have before := display_pending found read
    have settled : later.pending.get? path = .none := none
    have after := display_settled settled reread
    have language : later.registry = (s.registry.lookUpPath path).2 := by
      simp only [later, before]
    rw [orderly.pieces_eq_apply keeps fills] at before
    refine ⟨_, _, congrArg Prod.fst before, congrArg Prod.fst after, ?_⟩
    rw [language, Registry.lookUpPath_after, List.map_map, List.map_map]
    rfl

def draft : Disk :=
  ⟨⟨.ofList [(["a.py"], .file (.text "x = 1\ny = 2") false)], by decide +kernel⟩, [], ⟨""⟩⟩

-- An edit that makes two lines of one, a deletion, and an insertion past the end.
def draftChanges : List Change :=
  [.replacing 0 none "if x:\n  pass", .deletion 1 none, .insertion 2 "z = 3"]

def drafting : Session :=
  ⟨⟨""⟩, .default, .empty, draftChanges.foldl (fun p c => p.record ⟨"a.py"⟩ c) .empty⟩

theorem preview_eq_committed_draft :
    let set := draftChanges.foldl ChangeSet.record (.empty ⟨"a.py"⟩)
    let (outcome, run) := Pending.resolve .acceptAll ⟨drafting.pending, draft, ()⟩ ⟨"a.py"⟩
    let later := { (drafting.display draft ⟨"a.py"⟩).2 with pending := run.pending }
    drafting.pending.get? ⟨"a.py"⟩ = some set ∧ set.Recorded ∧
    draft.readText ⟨"a.py"⟩ = .ok "x = 1\ny = 2" ∧ set.KeepsPlaces 2 ∧ set.FillsUp 2 ∧
    outcome = .ok true ∧
    (set.overlay ["x = 1\n", "y = 2"]).values = ["if x:\n  pass\n", "\n", "z = 3\n"] ∧
    ∃ shown written, (drafting.display draft ⟨"a.py"⟩).1 = .ok shown ∧
      (later.display run.disk ⟨"a.py"⟩).1 = .ok written ∧
      shown.map Row.record = written.map Row.record := by
  intro set
  have recorded : set.Recorded := by
    refine ⟨draftChanges, fun c member => ?_, rfl⟩
    simp only [draftChanges, List.mem_cons, List.not_mem_nil, or_false] at member
    rcases member with rfl | rfl | rfl <;> exact ⟨_, _, _, _, rfl⟩
  have keeps : set.KeepsPlaces 2 := by decide
  have fills : set.FillsUp 2 := by decide
  have values := preview_eq_committed.1 set ["x = 1\n", "y = 2"] recorded keeps
  have displays := preview_eq_committed.2 Unit .acceptAll () drafting draft ⟨"a.py"⟩ set
    "x = 1\ny = 2" _ rfl recorded rfl keeps fills rfl
  exact ⟨rfl, recorded, rfl, keeps, fills, rfl, values, displays⟩

end Session

end LineLedger
