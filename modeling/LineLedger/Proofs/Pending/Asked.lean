import LineLedger.Proofs.Pending.Remade

set_option autoImplicit false

namespace LineLedger

variable {σ τ : Type}

abbrev Dialogue := List (ConfirmRequest × Confirmation)

namespace Dialogue

-- The last answer stands for what is not asked; where nothing is asked the answer is yes.
def stands (heard : Dialogue) : Bool := heard.getLast?.all fun question => question.2.accept

theorem stands_iff (heard : Dialogue) :
    heard.stands = true ↔ ∀ last, heard.getLast? = some last → last.2.accept = true := by
  cases last : heard.getLast? <;> simp [stands, last]

def verdicts (heard : Dialogue) (count : Nat) : List Bool :=
  (heard.map fun question => question.2.accept) ++
    List.replicate (count - heard.length) heard.stands

theorem verdicts_cons {heard : Dialogue} {count : Nat} (question : ConfirmRequest × Confirmation)
    (asked : heard = [] → count = 0) :
    verdicts (question :: heard) (count + 1) = question.2.accept :: verdicts heard count := by
  cases heard with
  | nil => simp [verdicts, asked rfl]
  | cons next rest => simp [verdicts, stands, List.getLast?_cons_cons]

theorem getElem?_verdicts_asked {heard : Dialogue} {place : Nat}
    {question : ConfirmRequest × Confirmation} (asked : heard[place]? = some question)
    (count : Nat) : (heard.verdicts count)[place]? = some question.2.accept := by
  obtain ⟨within, here⟩ := List.getElem?_eq_some_iff.1 asked
  simp [verdicts, List.getElem?_append_left, within, here]

theorem getElem?_verdicts_later {heard : Dialogue} {place count : Nat}
    (unasked : heard.length ≤ place) (within : place < count) :
    (heard.verdicts count)[place]? = some heard.stands := by
  have inside : place - heard.length < count - heard.length := by omega
  simp [verdicts, List.getElem?_append_right, unasked, inside]

end Dialogue

namespace Policy

def noting (prompt : Policy σ) : Policy (σ × Dialogue) :=
  ⟨fun (state, heard) request =>
    let (answer, state) := prompt.ask state request
    (answer, state, heard ++ [(request, answer)])⟩

def dialogue (prompt : Policy σ) (state : σ) : List ConfirmRequest → Dialogue
  | [] => []
  | request :: rest =>
    let (answer, state) := prompt.ask state request
    (request, answer) :: if answer.forAll then [] else dialogue prompt state rest

def stateAfter (policy : Policy σ) (standing : Option Bool) (state : σ) :
    List ConfirmRequest → σ
  | [] => state
  | request :: rest =>
    let (_, next, state) := policy.consult standing state request
    stateAfter policy next state rest

theorem ask_noting (prompt : Policy σ) (state : σ) (before : Dialogue) (request : ConfirmRequest) :
    prompt.noting.ask (state, before) request = ((prompt.ask state request).1,
      (prompt.ask state request).2, before ++ [(request, (prompt.ask state request).1)]) := rfl

theorem stateAfter_cons {policy : Policy σ} {standing next : Option Bool} {state later : σ}
    {request : ConfirmRequest} {accept : Bool}
    (answer : policy.consult standing state request = (accept, next, later))
    (rest : List ConfirmRequest) :
    policy.stateAfter standing state (request :: rest) = policy.stateAfter next later rest := by
  rw [stateAfter, answer]

section Standing

variable (policy : Policy σ) (accept : Bool) (state : σ) (requests : List ConfirmRequest)

theorem answers_standing :
    policy.answers (some accept) state requests = List.replicate requests.length accept := by
  induction requests with
  | nil => rfl
  | cons request rest ih => simp [answers, consult, ih, List.replicate_succ]

theorem stateAfter_standing : policy.stateAfter (some accept) state requests = state := by
  induction requests with
  | nil => rfl
  | cons request rest ih => simp [stateAfter, consult, ih]

end Standing

section Dialogue

variable (prompt : Policy σ) (state : σ) (requests : List ConfirmRequest)

theorem dialogue_eq_nil_iff : prompt.dialogue state requests = [] ↔ requests = [] := by
  cases requests <;> simp [dialogue]

theorem request_of_dialogue {place : Nat} {question : ConfirmRequest × Confirmation}
    (asked : (prompt.dialogue state requests)[place]? = some question) :
    requests[place]? = some question.1 := by
  induction requests generalizing state place with
  | nil => simp [dialogue] at asked
  | cons request rest ih =>
      cases place with
      | zero =>
          have first : (request, (prompt.ask state request).1) = question := by
            simpa [dialogue] using asked
          simp [← first]
      | succ place =>
          by_cases stop : (prompt.ask state request).1.forAll = true
          · simp [dialogue, stop] at asked
          · simp only [dialogue, stop, Bool.false_eq_true, if_false,
              List.getElem?_cons_succ] at asked ⊢
            exact ih _ asked

theorem lt_length_dialogue_iff {place : Nat} (within : place < requests.length) :
    place < (prompt.dialogue state requests).length ↔
      ∀ question ∈ (prompt.dialogue state requests).take place, question.2.forAll = false := by
  induction requests generalizing state place with
  | nil => simp at within
  | cons request rest ih =>
      cases place with
      | zero => simp [dialogue]
      | succ place =>
          have later := ih (prompt.ask state request).2 (Nat.lt_of_succ_lt_succ within)
          by_cases stop : (prompt.ask state request).1.forAll = true <;>
            simp [dialogue, stop, later]

theorem answers_noting (before : Dialogue) :
    prompt.noting.answers none (state, before) requests =
      (prompt.dialogue state requests).verdicts requests.length := by
  induction requests generalizing state before with
  | nil => rfl
  | cons request rest ih =>
      have asked : prompt.dialogue (prompt.ask state request).2 rest = [] → rest.length = 0 := by
        simp [dialogue_eq_nil_iff]
      by_cases stop : (prompt.ask state request).1.forAll = true
      · simp [answers, consult, ask_noting, dialogue, stop, answers_standing, Dialogue.verdicts,
          Dialogue.stands]
      · simp [answers, consult, ask_noting, dialogue, stop, Dialogue.verdicts_cons _ asked, ih]

theorem heard_noting (before : Dialogue) :
    (prompt.noting.stateAfter none (state, before) requests).2 =
      before ++ prompt.dialogue state requests := by
  induction requests generalizing state before with
  | nil => simp [stateAfter, dialogue]
  | cons request rest ih =>
      by_cases stop : (prompt.ask state request).1.forAll = true
      · simp [stateAfter, consult, ask_noting, dialogue, stop, stateAfter_standing]
      · simp [stateAfter, consult, ask_noting, dialogue, stop, ih]

end Dialogue

-- A policy with more state answers as one with less, seen through the view.
theorem consult_view {plain : Policy σ} {policy : Policy τ} {view : τ → σ}
    (same : ∀ state request, plain.ask (view state) request =
      ((policy.ask state request).1, view (policy.ask state request).2))
    {standing next : Option Bool} {state later : τ} {request : ConfirmRequest} {accept : Bool}
    (answer : policy.consult standing state request = (accept, next, later)) :
    plain.consult standing (view state) request = (accept, next, view later) := by
  cases standing with
  | some stands =>
      cases answer
      rfl
  | none =>
      simp only [consult, same] at answer ⊢
      cases answer
      rfl

end Policy

namespace ConfirmMode

variable (mode : ConfirmMode) (prompt : Policy σ) (state : σ) (requests : List ConfirmRequest)

def heard : Dialogue :=
  match mode with
  | .never => []
  | .once => (prompt.dialogue state requests).take 1
  | .perFile => prompt.dialogue state requests

theorem ask_apply_noting (before : Dialogue) (request : ConfirmRequest) :
    let (answer, later) := (mode.apply prompt.noting).ask (state, before) request
    (mode.apply prompt).ask state request = (answer, later.1) := by
  cases mode <;> rfl

theorem answers_apply :
    (mode.apply prompt.noting).answers none (state, []) requests =
      (mode.heard prompt state requests).verdicts requests.length := by
  cases mode with
  | perFile => exact prompt.answers_noting state requests []
  | never | once =>
      cases requests with
      | nil => rfl
      | cons request rest =>
          simp [apply, heard, Policy.answers, Policy.consult, Policy.acceptAll, Policy.ask_noting,
            Policy.dialogue, Confirmation.always, Confirmation.yes, Policy.answers_standing,
            Dialogue.verdicts, Dialogue.stands, List.replicate_succ]

theorem heard_apply :
    ((mode.apply prompt.noting).stateAfter none (state, []) requests).2 =
      mode.heard prompt state requests := by
  cases mode with
  | perFile => exact prompt.heard_noting state requests []
  | never | once =>
      cases requests with
      | nil => rfl
      | cons request rest =>
          simp [apply, heard, Policy.stateAfter, Policy.consult, Policy.acceptAll,
            Policy.ask_noting, Policy.dialogue, Confirmation.always, Policy.stateAfter_standing]

theorem request_of_heard {place : Nat} {question : ConfirmRequest × Confirmation}
    (asked : (mode.heard prompt state requests)[place]? = some question) :
    requests[place]? = some question.1 := by
  cases mode with
  | never => simp [heard] at asked
  | once =>
      have first : (prompt.dialogue state requests)[place]? = some question := by
        simp only [heard, List.getElem?_take] at asked
        split at asked
        · exact asked
        · cases asked
      exact prompt.request_of_dialogue state requests first
  | perFile => exact prompt.request_of_dialogue state requests asked

end ConfirmMode

namespace Pending

section Batch

variable {policy : Policy σ} {affected : Nat} {standing : Option Bool} {run final : Run σ}
  {files : List Path} {report : ResolveReport}

theorem Batch.resolveEach_eq (batch : Batch policy affected standing run files report final) :
    resolveEach policy affected standing run files = (report, final) := by
  induction batch with
  | done => rfl
  | declined answer later ih => simp [resolveEach_cons, answer, ih]
  | committed answer commit later ih => simp [resolveEach_cons, answer, commit, ih]
  | failed answer commit later ih => simp [resolveEach_cons, answer, commit, ih]

theorem Batch.view {plain : Policy τ} (view : σ → τ)
    (same : ∀ state request, plain.ask (view state) request =
      ((policy.ask state request).1, view (policy.ask state request).2))
    (batch : Batch policy affected standing run files report final) :
    Batch plain affected standing ⟨run.pending, run.disk, view run.policy⟩ files report
      ⟨final.pending, final.disk, view final.policy⟩ := by
  induction batch with
  | done standing run => exact .done standing _
  | declined answer later ih => exact .declined (Policy.consult_view same answer) ih
  | committed answer commit later ih => exact .committed (Policy.consult_view same answer) commit ih
  | failed answer commit later ih => exact .failed (Policy.consult_view same answer) commit ih

variable (batch : Batch policy affected standing run files report final)
  (routes : files.Pairwise fun a b => ¬ a.Same b)

include batch routes

theorem Batch.policy_eq_stateAfter : final.policy = policy.stateAfter standing run.policy
    (files.map fun file => run.pending.request file affected) := by
  induction batch with
  | done => rfl
  | declined answer later ih =>
      rw [List.map_cons, Policy.stateAfter_cons answer]
      exact ih routes.of_cons
  | committed answer commit later ih =>
      have after := ih routes.of_cons
      simp only [(commitFile_cases commit).1,
        requests_discard _ (List.pairwise_cons.1 routes).1] at after
      rw [List.map_cons, Policy.stateAfter_cons answer]
      exact after
  | failed answer commit later ih =>
      rw [List.map_cons, Policy.stateAfter_cons answer]
      exact ih routes.of_cons

theorem Batch.accepted_iff {place : Nat} {file : Path} (here : files[place]? = some file) :
    file ∈ report.committed ∨ file ∈ report.failed.map Prod.fst ↔
      (policy.answers standing run.policy
        (files.map fun file => run.pending.request file affected))[place]? = some true := by
  have once : files.Nodup := routes.imp fun apart same => apart (congrArg Path.route same)
  rw [← (batch.fates routes).2, List.mem_iff_getElem?]
  simp only [List.getElem?_zip_eq_some]
  constructor
  · intro ⟨other, there, yes⟩
    have within := (List.getElem?_eq_some_iff.1 here).1
    have same : place = other := (List.getElem?_inj within once).1 (here.trans there.symm)
    rwa [same]
  · exact fun yes => ⟨place, here, yes⟩

end Batch

structure Asked (mode : ConfirmMode) (p : Pending) (heard : Dialogue) (report : ResolveReport) :
    Prop where
  ordered : p.affectedFiles.Pairwise fun a b => a.before b = true
  split : (report.committed ++ report.rejected ++ report.failed.map Prod.fst).Perm p.affectedFiles
  -- The questions are about the first files, each with its own changes.
  about : ∀ (place : Nat) question, heard[place]? = some question →
    ∃ file set, p.affectedFiles[place]? = some file ∧ p.get? file = some set ∧
      question.1 = ⟨file, set.size, p.affectedFiles.length⟩
  never : mode = .never → heard = [] ∧ report.rejected = []
  once : mode = .once → heard.length = min 1 p.affectedFiles.length
  perFile : mode = .perFile → ∀ place < p.affectedFiles.length,
    (place < heard.length ↔ ∀ question ∈ heard.take place, question.2.forAll = false)
  own : ∀ question ∈ heard,
    (question.1.file ∈ report.committed ∨ question.1.file ∈ report.failed.map Prod.fst ↔
      question.2.accept = true)
  later : ∀ file ∈ p.affectedFiles.drop heard.length,
    (file ∈ report.committed ∨ file ∈ report.failed.map Prod.fst ↔
      ∀ last, heard.getLast? = some last → last.2.accept = true)

def requests (p : Pending) : List ConfirmRequest :=
  p.affectedFiles.map fun file => p.request file p.affectedFiles.length

theorem length_requests (p : Pending) : p.requests.length = p.affectedFiles.length :=
  List.length_map _

theorem Sound.about_heard {p : Pending} (sound : p.Sound) (mode : ConfirmMode)
    (prompt : Policy σ) (state : σ) {place : Nat} {question : ConfirmRequest × Confirmation}
    (asked : (mode.heard prompt state p.requests)[place]? = some question) :
    ∃ file set, p.affectedFiles[place]? = some file ∧ p.get? file = some set ∧
      question.1 = ⟨file, set.size, p.affectedFiles.length⟩ := by
  have put := mode.request_of_heard prompt state p.requests asked
  rw [requests, List.getElem?_map] at put
  obtain ⟨file, here, same⟩ := Option.map_eq_some_iff.1 put
  obtain ⟨set, kept⟩ := (sound.mem_affectedFiles file).1 ⟨file, List.mem_of_getElem? here, rfl⟩
  exact ⟨file, set, here, kept, by simp [← same, request, kept]⟩

theorem asked_as_configured (mode : ConfirmMode) (prompt : Policy σ) (state : σ) {p : Pending}
    (reachable : p.Reachable) (d : Disk) :
    let (report, final) := resolveAll (mode.apply prompt.noting) ⟨p, d, (state, [])⟩
    resolveAll (mode.apply prompt) ⟨p, d, state⟩ =
        (report, ⟨final.pending, final.disk, final.policy.1⟩) ∧
      Asked mode p final.policy.2 report := by
  have sound := reachable.sound
  have routes := sound.affectedFiles_routes
  have batch := batch_resolveEach (mode.apply prompt.noting) p.affectedFiles.length none
    ⟨p, d, (state, [])⟩ p.affectedFiles
  rw [resolveAll, resolveAll]
  dsimp only
  generalize resolveEach (mode.apply prompt.noting) p.affectedFiles.length none
    ⟨p, d, (state, [])⟩ p.affectedFiles = outcome at batch ⊢
  obtain ⟨report, final⟩ := outcome
  have plain := batch.view Prod.fst
    fun (state, before) request => mode.ask_apply_noting prompt state before request
  refine ⟨plain.resolveEach_eq, ?_⟩
  have heard : final.policy.2 = mode.heard prompt state p.requests :=
    (congrArg Prod.snd (batch.policy_eq_stateAfter routes)).trans (mode.heard_apply prompt state _)
  -- The verdict at a file's place is its own answer where it was asked about, else the last one.
  have accepted {place : Nat} {file : Path} (here : p.affectedFiles[place]? = some file) :
      file ∈ report.committed ∨ file ∈ report.failed.map Prod.fst ↔
        (Dialogue.verdicts final.policy.2 p.affectedFiles.length)[place]? = some true := by
    rw [heard, ← p.length_requests, ← mode.answers_apply]
    exact batch.accepted_iff routes here
  have about {place : Nat} {question : ConfirmRequest × Confirmation}
      (asked : final.policy.2[place]? = some question) :
      ∃ file set, p.affectedFiles[place]? = some file ∧ p.get? file = some set ∧
        question.1 = ⟨file, set.size, p.affectedFiles.length⟩ :=
    sound.about_heard mode prompt state (heard ▸ asked)
  constructor
  case ordered => exact sound.affectedFiles_ordered
  case split => exact batch.perm
  case about => exact fun place question asked => about asked
  case never =>
    intro never
    subst never
    exact ⟨heard, batch.rejected_eq_nil Policy.accepts_acceptAll (by simp)⟩
  case once =>
    intro once
    subst once
    have first := prompt.dialogue_eq_nil_iff state p.requests
    simp only [← List.length_eq_zero_iff, length_requests] at first
    rw [heard, ConfirmMode.heard, List.length_take]
    omega
  case perFile =>
    intro perFile place within
    subst perFile
    rw [heard]
    exact prompt.lt_length_dialogue_iff state p.requests (by rwa [length_requests])
  case own =>
    intro question member
    obtain ⟨place, asked⟩ := List.mem_iff_getElem?.1 member
    obtain ⟨file, set, here, _, same⟩ := about asked
    rw [same, accepted here, Dialogue.getElem?_verdicts_asked asked, Option.some_inj]
  case later =>
    intro file member
    obtain ⟨place, here⟩ := List.mem_iff_getElem?.1 member
    rw [List.getElem?_drop] at here
    have within := (List.getElem?_eq_some_iff.1 here).1
    rw [accepted here, Dialogue.getElem?_verdicts_later (Nat.le_add_right _ place) within,
      Option.some_inj, Dialogue.stands_iff]

def drafts : Disk :=
  ⟨⟨.ofList [(["a"], .file (.text "one\n") false), (["b"], .file (.text "two\n") true),
    (["c"], .file (.text "three\n") false)], by decide +kernel⟩, [], ⟨""⟩⟩

def draftCalls : List (Disk × Call) :=
  [(drafts, .edit ⟨"c"⟩ 0 none "z"), (drafts, .edit ⟨"b"⟩ 0 none "y"),
    (drafts, .edit ⟨"a"⟩ 0 none "x"), (drafts, .insert ⟨"a"⟩ 4 "w")]

def secondThoughts : Policy Nat :=
  ⟨fun asked _ => (if asked = 0 then .no else Confirmation.yes.always, asked + 1)⟩

theorem asked_as_configured_drafts :
    let p := (runCalls .empty draftCalls).2
    let heard : Dialogue := [(⟨⟨"a"⟩, 2, 3⟩, .no), (⟨⟨"b"⟩, 1, 3⟩, Confirmation.yes.always)]
    p.Reachable ∧
    Asked .perFile p heard ⟨[⟨"c"⟩], [⟨"a"⟩], [(⟨"b"⟩, .locked ⟨"b"⟩)]⟩ :=
  ⟨⟨_, rfl⟩, (asked_as_configured .perFile secondThoughts 0 ⟨_, rfl⟩ drafts).2⟩

end Pending

end LineLedger
