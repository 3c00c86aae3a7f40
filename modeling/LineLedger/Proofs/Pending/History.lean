import LineLedger.Script
import LineLedger.Proofs.Pending.Invariant

set_option autoImplicit false

namespace LineLedger

inductive Event where
  | recorded (path : Path) (change : Change)
  | dropped (path : Path)
  | cleared

-- Histories for `latest` are given newest first.
def latest (path : Path) (line : Nat) : List Event → Option Change
  | [] => none
  | .recorded other change :: earlier =>
    if path.Same other ∧ line = change.line then some change else latest path line earlier
  | .dropped other :: earlier => if path.Same other then none else latest path line earlier
  | .cleared :: _ => none

def Event.Proper : Event → Prop
  | .recorded _ change => change.Ended
  | .dropped _ | .cleared => True

namespace Pending

def after (p : Pending) : Event → Pending
  | .recorded path change => p.record path change
  | .dropped path => (p.discard path).2
  | .cleared => .empty

def changeAt (p : Pending) (path : Path) (line : Nat) : Option Change :=
  (p.get? path).bind fun set => set.get? line

theorem sound_after {p : Pending} (sound : p.Sound) {event : Event} (proper : event.Proper) :
    (p.after event).Sound := by
  cases event with
  | recorded path change => exact sound.record path proper
  | dropped path => exact sound.discard path
  | cleared => exact sound_empty

theorem sound_foldl_after {p : Pending} (sound : p.Sound) {events : List Event}
    (proper : ∀ event ∈ events, event.Proper) : (events.foldl after p).Sound := by
  induction events generalizing p with
  | nil => exact sound
  | cons event rest ih =>
      exact ih (sound_after sound (proper event (List.mem_cons_self ..)))
        fun later member => proper later (List.mem_cons_of_mem _ member)

theorem Sound.changeAt_eq {p : Pending} (sound : p.Sound) (path : Path) (line : Nat) :
    p.changeAt path line = (p.sets.get? path.route).bind fun set => set.get? line := by
  rw [changeAt, sound.get?_eq]

theorem changeAt_record {p : Pending} (sound : p.Sound) (other path : Path) {change : Change}
    (ended : change.Ended) (line : Nat) :
    (p.record other change).changeAt path line =
      if path.Same other ∧ line = change.line then some change else p.changeAt path line := by
  rw [(sound.record other ended).changeAt_eq, sound.changeAt_eq, get?_sets_record]
  by_cases here : path.route = other.route
  · rw [if_pos here, Option.bind_some, ChangeSet.get?_record]
    by_cases there : line = change.line
    · simp [Path.Same, here, there]
    · simp only [Path.Same, here, there, and_false, if_false]
      cases p.sets.get? other.route <;> rfl
  · simp [Path.Same, here]

theorem changeAt_discard {p : Pending} (sound : p.Sound) (other path : Path) (line : Nat) :
    (p.discard other).2.changeAt path line =
      if path.Same other then none else p.changeAt path line := by
  rw [(sound.discard other).changeAt_eq, sound.changeAt_eq, get?_sets_discard]
  by_cases here : path.route = other.route <;> simp [Path.Same, here]

theorem changeAt_after {p : Pending} (sound : p.Sound) {event : Event} (proper : event.Proper)
    (earlier : List Event)
    (correct : ∀ path line, p.changeAt path line = latest path line earlier) (path : Path)
    (line : Nat) : (p.after event).changeAt path line = latest path line (event :: earlier) := by
  cases event with
  | recorded other change =>
      rw [after, changeAt_record sound other path proper, correct]
      rfl
  | dropped other =>
      rw [after, changeAt_discard sound, correct]
      rfl
  | cleared => rfl

theorem changeAt_foldl_after {p : Pending} (sound : p.Sound) {events : List Event}
    (proper : ∀ event ∈ events, event.Proper) (earlier : List Event)
    (correct : ∀ path line, p.changeAt path line = latest path line earlier) (path : Path)
    (line : Nat) :
    (events.foldl after p).changeAt path line = latest path line (events.reverse ++ earlier) := by
  induction events generalizing p earlier with
  | nil => exact correct path line
  | cons event rest ih =>
      have here := proper event (List.mem_cons_self ..)
      have later : ∀ next ∈ rest, next.Proper :=
        fun next member => proper next (List.mem_cons_of_mem _ member)
      rw [List.foldl_cons, List.reverse_cons, List.append_assoc]
      exact ih (sound_after sound here) later (event :: earlier)
        (changeAt_after sound here earlier correct)

end Pending

end LineLedger
