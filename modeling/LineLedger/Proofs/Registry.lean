import Mathlib.Data.List.Dedup
import LineLedger.Proofs.Language
import LineLedger.Proofs.Table
import LineLedger.Registry

set_option autoImplicit false

namespace LineLedger.Registry

section Entry

variable {r : Registry} {ext : String}

theorem entryFor_seen {entry : Entry}
    (seen : r.memory.get? (Extension.normalize ext) = some entry) : r.entryFor ext = (entry, r) := by
  simp [entryFor, seen]

theorem entryFor_unseen (unseen : r.memory.get? (Extension.normalize ext) = none) :
    r.entryFor ext =
      let entry := ⟨r.size, r.languageFor (Extension.normalize ext)⟩
      (entry, { r with memory := r.memory.insert (Extension.normalize ext) entry }) := by
  simp [entryFor, unseen, size]

theorem overrides_entryFor (r : Registry) (ext : String) :
    (r.entryFor ext).2.overrides = r.overrides := by
  cases found : r.memory.get? (Extension.normalize ext) with
  | some entry => rw [entryFor_seen found]
  | none => rw [entryFor_unseen found]

theorem get?_entryFor (r : Registry) (ext key : String) :
    (r.entryFor ext).2.memory.get? key =
      if key = Extension.normalize ext then some (r.entryFor ext).1 else r.memory.get? key := by
  cases found : r.memory.get? (Extension.normalize ext) with
  | some entry =>
      rw [entryFor_seen found]
      by_cases here : key = Extension.normalize ext <;> simp [here, found]
  | none =>
      rw [entryFor_unseen found]
      exact Table.get?_insert ..

-- What is looked up first has no influence on what is found next.
theorem lookUp_after (r : Registry) (first next : String) :
    ((r.lookUp first).2.lookUp next).1 = (r.lookUp next).1 := by
  change ((r.entryFor first).2.entryFor next).1.language = (r.entryFor next).1.language
  cases seen : r.memory.get? (Extension.normalize first) with
  | some entry => rw [entryFor_seen seen]
  | none =>
      by_cases same : Extension.normalize next = Extension.normalize first
      · have found := get?_entryFor r first (Extension.normalize next)
        rw [if_pos same] at found
        rw [entryFor_seen found, entryFor_unseen seen, entryFor_unseen (same ▸ seen), same]
      · have found := get?_entryFor r first (Extension.normalize next)
        rw [if_neg same] at found
        cases known : r.memory.get? (Extension.normalize next) with
        | some entry => rw [entryFor_seen (found.trans known), entryFor_seen known]
        | none =>
            rw [entryFor_unseen (found.trans known), entryFor_unseen known]
            simp only [languageFor, overrides_entryFor]

theorem lookUpPath_after (r : Registry) (p q : Path) :
    ((r.lookUpPath p).2.lookUpPath q).1 = (r.lookUpPath q).1 := lookUp_after r _ _

end Entry

-- Every entry says what is worked out for its extension, and has a number of its own.
structure Coherent (r : Registry) : Prop where
  language : ∀ key entry, r.memory.get? key = some entry → entry.language = r.languageFor key
  below : ∀ key entry, r.memory.get? key = some entry → entry.number < r.size
  apart : ∀ key other entry same, r.memory.get? key = some entry →
    r.memory.get? other = some same → entry.number = same.number → key = other

namespace Coherent

variable {r : Registry}

theorem ofOverrides (entries : List (String × Language)) : (ofOverrides entries).Coherent where
  language key entry found := by cases found
  below key entry found := by cases found
  apart key other entry same found := by cases found

theorem entryFor (coherent : r.Coherent) (ext : String) : (r.entryFor ext).2.Coherent := by
  cases found : r.memory.get? (Extension.normalize ext) with
  | some entry => rwa [entryFor_seen found]
  | none =>
      rw [entryFor_unseen found]
      have grown := Table.size_insert_of_absent found ⟨r.size, r.languageFor (Extension.normalize ext)⟩
      constructor
      · intro key entry present
        rw [Table.get?_insert] at present
        split at present
        · rename_i here
          cases present
          rw [here]
          rfl
        · exact coherent.language key entry present
      · intro key entry present
        rw [size, grown]
        rw [Table.get?_insert] at present
        split at present
        · cases present
          exact Nat.lt_succ_self r.size
        · exact Nat.lt_succ_of_lt (coherent.below key entry present)
      · -- The entries there were have smaller numbers than the new one.
        intro key other entry same present also equal
        rw [Table.get?_insert] at present also
        split at present <;> split at also
        · simp [*]
        · cases present
          have := coherent.below other same also
          simp only at equal
          omega
        · cases also
          have := coherent.below key entry present
          simp only at equal
          omega
        · exact coherent.apart key other entry same present also equal

theorem lookUp_eq (coherent : r.Coherent) (ext : String) :
    (r.lookUp ext).1 = r.languageFor (Extension.normalize ext) := by
  change (r.entryFor ext).1.language = _
  cases found : r.memory.get? (Extension.normalize ext) with
  | some entry =>
      rw [entryFor_seen found]
      exact coherent.language _ entry found
  | none => rw [entryFor_unseen found]

end Coherent

section Calls

inductive Call where
  | extension (ext : String)
  | path (p : Path)
  | language (ext : String)

inductive Answer where
  | entry (entry : Entry)
  | language (language : Language)
deriving DecidableEq

def Call.sought? : Call → Option String
  | .extension ext => some ext
  | .path p => some (p.extension?.getD "")
  | .language _ => none

def Call.key? (call : Call) : Option String := call.sought?.map Extension.normalize

def Answer.spoken : Answer → Language
  | .entry found => found.language
  | .language plain => plain

def answer (r : Registry) : Call → Answer × Registry
  | .extension ext =>
    let (entry, r) := r.entryFor ext
    (.entry entry, r)
  | .path p =>
    let (entry, r) := r.entryFor (p.extension?.getD "")
    (.entry entry, r)
  | .language ext => (.language (r.languageFor ext), r)

def answerAll (r : Registry) : List Call → List Answer × Registry
  | [] => ([], r)
  | call :: rest =>
    let (first, r) := r.answer call
    let (answers, r) := answerAll r rest
    (first :: answers, r)

theorem answerAll_cons (r : Registry) (call : Call) (rest : List Call) :
    r.answerAll (call :: rest) =
      ((r.answer call).1 :: ((r.answer call).2.answerAll rest).1,
        ((r.answer call).2.answerAll rest).2) := rfl

variable {r : Registry}

theorem answer_sought {call : Call} {ext : String} (sought : call.sought? = some ext) :
    r.answer call = (.entry (r.entryFor ext).1, (r.entryFor ext).2) := by
  cases call <;> cases sought <;> rfl

theorem answer_unsought {call : Call} (unsought : call.sought? = none) :
    (r.answer call).2 = r := by
  cases call with
  | language ext => rfl
  | extension ext => cases unsought
  | path p => cases unsought

theorem overrides_answer (r : Registry) (call : Call) :
    (r.answer call).2.overrides = r.overrides := by
  cases sought : call.sought? with
  | some ext => rw [answer_sought sought, overrides_entryFor]
  | none => rw [answer_unsought sought]

theorem Coherent.answer (coherent : r.Coherent) (call : Call) : (r.answer call).2.Coherent := by
  cases sought : call.sought? with
  | some ext =>
      rw [answer_sought sought]
      exact coherent.entryFor ext
  | none => rwa [answer_unsought sought]

theorem get?_answer {key : String} {entry : Entry} (found : r.memory.get? key = some entry)
    (call : Call) : (r.answer call).2.memory.get? key = some entry := by
  cases sought : call.sought? with
  | none => rwa [answer_unsought sought]
  | some ext =>
      rw [answer_sought sought, get?_entryFor]
      split
      · rename_i here
        rw [entryFor_seen (here ▸ found)]
      · exact found

theorem mem_keys_answer (call : Call) (key : String) :
    (∃ entry, (r.answer call).2.memory.get? key = some entry) ↔
      (∃ entry, r.memory.get? key = some entry) ∨ call.key? = some key := by
  cases sought : call.sought? with
  | none => simp [answer_unsought sought, Call.key?, sought]
  | some ext =>
      rw [answer_sought sought, get?_entryFor, Call.key?, sought]
      by_cases here : key = Extension.normalize ext
      · simp [here]
      · simp [here, Ne.symm here]

theorem Coherent.answerAll (coherent : r.Coherent) (calls : List Call) :
    (r.answerAll calls).2.Coherent := by
  induction calls generalizing r with
  | nil => exact coherent
  | cons call rest ih => exact ih (coherent.answer call)

theorem get?_answerAll {key : String} {entry : Entry} (found : r.memory.get? key = some entry)
    (calls : List Call) : (r.answerAll calls).2.memory.get? key = some entry := by
  induction calls generalizing r with
  | nil => exact found
  | cons call rest ih => exact ih (get?_answer found call)

theorem mem_keys_answerAll (r : Registry) (calls : List Call) (key : String) :
    (∃ entry, (r.answerAll calls).2.memory.get? key = some entry) ↔
      (∃ entry, r.memory.get? key = some entry) ∨ key ∈ calls.filterMap Call.key? := by
  induction calls generalizing r with
  | nil => simp [answerAll]
  | cons call rest ih =>
      rw [answerAll_cons, ih, mem_keys_answer, or_assoc, List.mem_filterMap, List.mem_filterMap]
      simp

-- Every look-up is answered by an entry that the memory holds to the end.
theorem getElem?_answerAll {calls : List Call} {place : Nat} {call : Call} {key : String}
    (asked : calls[place]? = some call) (sought : call.key? = some key) :
    ∃ entry, (r.answerAll calls).1[place]? = some (.entry entry) ∧
      (r.answerAll calls).2.memory.get? key = some entry := by
  induction calls generalizing r place with
  | nil => simp at asked
  | cons head rest ih =>
      rw [answerAll_cons]
      cases place with
      | zero =>
          have here : head = call := by simpa using asked
          subst here
          obtain ⟨ext, given, rfl⟩ := Option.map_eq_some_iff.1 sought
          have kept : (r.answer head).2.memory.get? (Extension.normalize ext) =
              some (r.entryFor ext).1 := by
            rw [answer_sought given, get?_entryFor, if_pos rfl]
          exact ⟨(r.entryFor ext).1, by simp [answer_sought given], get?_answerAll kept rest⟩
      | succ later => exact ih asked

theorem Coherent.spoken_answer (coherent : r.Coherent) {entries : List (String × Language)}
    (same : r.overrides = Overrides.ofEntries entries) (call : Call) :
    (r.answer call).1.spoken = ((Registry.ofOverrides entries).answer call).1.spoken := by
  have plain : ∀ ext, r.languageFor ext = (Registry.ofOverrides entries).languageFor ext := by
    intro ext
    rw [languageFor, same]
    rfl
  have found : ∀ ext, (r.lookUp ext).1 = ((Registry.ofOverrides entries).lookUp ext).1 := by
    intro ext
    rw [coherent.lookUp_eq, (Coherent.ofOverrides entries).lookUp_eq, plain]
  cases call with
  | extension ext => exact found ext
  | path p => exact found (p.extension?.getD "")
  | language ext => exact plain ext

theorem Coherent.spoken_answerAll (coherent : r.Coherent) {entries : List (String × Language)}
    (same : r.overrides = Overrides.ofEntries entries) (calls : List Call) :
    (r.answerAll calls).1.map Answer.spoken =
      calls.map fun call => ((Registry.ofOverrides entries).answer call).1.spoken := by
  induction calls generalizing r with
  | nil => rfl
  | cons call rest ih =>
      rw [answerAll_cons, List.map_cons, List.map_cons, coherent.spoken_answer same,
        ih (coherent.answer call) ((overrides_answer r call).trans same)]

theorem size_answerAll (entries : List (String × Language)) (calls : List Call) :
    ((ofOverrides entries).answerAll calls).2.size =
      (calls.filterMap Call.key?).dedup.length := by
  rw [size, ← Table.length_keys]
  have listed : ∀ key, key ∈ ((ofOverrides entries).answerAll calls).2.memory.keys ↔
      key ∈ (calls.filterMap Call.key?).dedup := by
    intro key
    rw [Table.mem_keys_iff, mem_keys_answerAll, List.mem_dedup]
    simp [ofOverrides]
  exact ((List.perm_ext_iff_of_nodup (Table.nodup_keys _) (List.nodup_dedup _)).2 listed).length_eq

end Calls

theorem answers_from_memory (entries : List (String × Language)) (calls : List Call) :
    let fresh := ofOverrides entries
    let (answers, r) := fresh.answerAll calls
    answers.map Answer.spoken = calls.map (fun call => (fresh.answer call).1.spoken) ∧
    (∀ (i j : Nat) (first second : Call) (key other : String), calls[i]? = some first →
      calls[j]? = some second → first.key? = some key → second.key? = some other →
      (answers[i]? = answers[j]? ↔ key = other)) ∧
    r.size = (calls.filterMap Call.key?).dedup.length := by
  intro fresh
  have start : fresh.Coherent := .ofOverrides entries
  refine ⟨start.spoken_answerAll rfl calls, ?_, size_answerAll entries calls⟩
  intro i j first second key other asked again sought also
  obtain ⟨entry, here, held⟩ := getElem?_answerAll (r := fresh) asked sought
  obtain ⟨same, there, kept⟩ := getElem?_answerAll (r := fresh) again also
  rw [here, there, Option.some.injEq, Answer.entry.injEq]
  constructor
  · intro equal
    exact (start.answerAll calls).apart key other entry same held kept (congrArg Entry.number equal)
  · rintro rfl
    exact Option.some.inj (held.symm.trans kept)

theorem memory_of_overridden :
    let fresh := ofOverrides [("py", .lua)]
    let calls : List Call := [.extension " .Py", .language "rs", .path ⟨"a/x.PY"⟩, .extension ""]
    let (answers, r) := fresh.answerAll calls
    answers[0]? = answers[2]? ∧ answers[0]? ≠ answers[3]? ∧ r.size = 2 ∧
    answers.map Answer.spoken = [.lua, .generic, .lua, .generic] := by
  intro fresh calls
  obtain ⟨spoken, shared, size⟩ := answers_from_memory [("py", .lua)] calls
  refine ⟨(shared 0 2 _ _ "py" "py" rfl rfl (by decide +kernel) (by decide +kernel)).2 rfl,
    mt (shared 0 3 _ _ "py" "" rfl rfl (by decide +kernel) (by decide +kernel)).1 (by decide),
    size.trans (by decide +kernel), spoken.trans (by decide +kernel)⟩

section Plain

variable {ext : String}

theorem languageFor_single (ext : String) (language : Language) (other : String) :
    (ofOverrides [(ext, language)]).languageFor other =
      if Extension.normalize other = Extension.normalize ext then language
      else (Language.ofExtension? (Extension.normalize other)).getD .generic := by
  have found : (Overrides.ofEntries [(ext, language)]).get? (Extension.normalize other) =
      if Extension.normalize other = Extension.normalize ext then some language else none :=
    Table.get?_insert ..
  simp only [languageFor, ofOverrides, Overrides.languageFor, found]
  by_cases here : Extension.normalize other = Extension.normalize ext <;> simp [here]

theorem languageFor_normalize (tight : Extension.IsTight ext.toList) (r : Registry) :
    r.languageFor (Extension.normalize ext) = r.languageFor ext := by
  simp only [languageFor, Overrides.languageFor, (Extension.normalize_normalize_iff ext).2 tight]

theorem isTight_of_plain (plain : ∀ language, ((ofOverrides [(ext, language)]).lookUp ext).1 =
    (ofOverrides [(ext, language)]).languageFor ext) : Extension.IsTight ext.toList := by
  rw [← Extension.normalize_normalize_iff]
  by_contra moved
  -- An override for the extension counts when it is asked for plainly, and not when it is looked
  -- up. So what is looked up is the same for every override.
  have same : ∀ language, (Language.ofExtension? (Extension.normalize (Extension.normalize ext))).getD
      .generic = language := by
    intro language
    have found := plain language
    rwa [(Coherent.ofOverrides _).lookUp_eq, languageFor_single, if_neg moved, languageFor_single,
      if_pos rfl] at found
  have clash := (same .lua).symm.trans (same .python)
  cases clash

end Plain

theorem lookUp_plain (ext : String) :
    (∀ entries calls, let r := ((ofOverrides entries).answerAll calls).2
      (r.lookUp ext).1 = r.languageFor (Extension.normalize ext)) ∧
    ((∀ entries calls, let r := ((ofOverrides entries).answerAll calls).2
      (r.lookUp ext).1 = r.languageFor ext) ↔ Extension.IsTight ext.toList) ∧
    ∀ (p : Path) entries calls, let r := ((ofOverrides entries).answerAll calls).2
      (r.lookUpPath p).1 = r.languageFor (p.extension?.getD "") := by
  have normal : ∀ other entries calls, let r := ((ofOverrides entries).answerAll calls).2
      (r.lookUp other).1 = r.languageFor (Extension.normalize other) :=
    fun other entries calls => ((Coherent.ofOverrides entries).answerAll calls).lookUp_eq other
  refine ⟨normal ext, ⟨fun plain => ?_, fun tight entries calls => ?_⟩, fun p entries calls => ?_⟩
  · exact isTight_of_plain fun language => plain [(ext, language)] []
  · exact (normal ext entries calls).trans (languageFor_normalize tight _)
  · exact (normal _ entries calls).trans (languageFor_normalize p.isTight_extension _)

theorem lookUp_spaced :
    let r := ofOverrides [("py", .lua)]
    (r.lookUp ". py").1 = .lua ∧ r.languageFor ". py" = .python := by
  decide +kernel

end LineLedger.Registry
