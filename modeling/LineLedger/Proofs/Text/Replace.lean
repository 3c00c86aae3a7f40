import LineLedger.Text.Replace
import LineLedger.Proofs.Text.Lines

set_option autoImplicit false

namespace LineLedger.Text

-- `fits` says between which two characters an occurrence is replaced; none stands for the edge of
-- the text. The characters to the left are known by the last of them.
inductive Replaced (fits : Option Char → Option Char → Prop) (old new : List Char) :
    Option Char → List Char → List Char → Prop where
  | done (before : Option Char) : Replaced fits old new before [] []
  | put {before : Option Char} {rest out : List Char} (fit : fits before rest.head?)
      (later : Replaced fits old new old.getLast? rest out) :
      Replaced fits old new before (old ++ rest) (new ++ out)
  | keep {before : Option Char} {c : Char} {rest out : List Char}
      (free : ∀ after, c :: rest = old ++ after → ¬ fits before after.head?)
      (later : Replaced fits old new (some c) rest out) :
      Replaced fits old new before (c :: rest) (c :: out)

def Occurs (fits : Option Char → Option Char → Prop) (old : List Char) (before : Option Char)
    (text : List Char) : Prop :=
  ∃ front after, text = front ++ old ++ after ∧ fits (front.getLast?.or before) after.head?

section Relation

variable {fits : Option Char → Option Char → Prop} {old new text rest out : List Char}
  {before : Option Char}

section Inversion

theorem Replaced.of_nil (filled : old ≠ []) (made : Replaced fits old new before [] out) :
    out = [] := by
  generalize empty : ([] : List Char) = text at made
  cases made with
  | done => rfl
  | put => simp [filled] at empty
  | keep => cases empty

theorem Replaced.of_fit (filled : old ≠ [])
    (made : Replaced fits old new before (old ++ rest) out) (fit : fits before rest.head?) :
    ∃ later, out = new ++ later ∧ Replaced fits old new old.getLast? rest later := by
  generalize whole : old ++ rest = text at made
  cases made with
  | done => simp [filled] at whole
  | put _ later =>
      cases List.append_cancel_left whole
      exact ⟨_, rfl, later⟩
  | keep free => exact absurd fit (free rest whole.symm)

theorem Replaced.of_free {c : Char}
    (free : ∀ after, c :: rest = old ++ after → ¬ fits before after.head?)
    (made : Replaced fits old new before (c :: rest) out) :
    ∃ later, out = c :: later ∧ Replaced fits old new (some c) rest later := by
  generalize whole : c :: rest = text at made
  cases made with
  | done => cases whole
  | put fit => exact absurd fit (free _ whole)
  | keep _ later =>
      cases whole
      exact ⟨_, rfl, later⟩

end Inversion

theorem Replaced.unique (filled : old ≠ []) (first : Replaced fits old new before text out)
    {other : List Char} (second : Replaced fits old new before text other) : other = out := by
  induction first generalizing other with
  | done => exact second.of_nil filled
  | put fit later ih =>
      obtain ⟨later', rfl, made⟩ := second.of_fit filled fit
      rw [ih made]
  | keep free later ih =>
      obtain ⟨later', rfl, made⟩ := second.of_free free
      rw [ih made]

theorem Replaced.congr {allows : Option Char → Option Char → Prop}
    (same : ∀ before after, fits before after ↔ allows before after)
    (made : Replaced fits old new before text out) : Replaced allows old new before text out := by
  induction made with
  | done before => exact .done before
  | put fit later ih => exact .put ((same _ _).1 fit) ih
  | keep free later ih => exact .keep (fun after whole fit => free after whole ((same _ _).2 fit)) ih

theorem Replaced.mem_or_mem (made : Replaced fits old new before text out) {c : Char}
    (member : c ∈ out) : c ∈ text ∨ c ∈ new := by
  induction made with
  | done => cases member
  | put fit later ih =>
      rcases List.mem_append.1 member with put | after
      · exact .inr put
      · exact (ih after).imp_left (List.mem_append_right _)
  | keep free later ih =>
      rcases List.mem_cons.1 member with rfl | after
      · exact .inl (List.mem_cons_self ..)
      · exact (ih after).imp_left (List.mem_cons_of_mem _)

-- Only the next occurrence can look at what stands before the text.
theorem Replaced.after {other : Option Char} (same : ∀ after, fits other after ↔ fits before after)
    (made : Replaced fits old new before text out) : Replaced fits old new other text out := by
  cases made with
  | done => exact .done other
  | put fit later => exact .put ((same _).2 fit) later
  | keep free later => exact .keep (fun after whole fit => free after whole ((same _).1 fit)) later

theorem Replaced.keepAll {front : List Char}
    (free : ∀ first second, front = first ++ second → second ≠ [] → ∀ after,
      second ++ text = old ++ after → ¬ fits (first.getLast?.or before) after.head?)
    (later : Replaced fits old new (front.getLast?.or before) text out) :
    Replaced fits old new before (front ++ text) (front ++ out) := by
  induction front generalizing before with
  | nil => exact later
  | cons c rest ih =>
      refine .keep (free [] (c :: rest) rfl (List.cons_ne_nil _ _)) (ih ?_ ?_)
      · intro first second split more after whole
        have apart := free (c :: first) second (by rw [split]; rfl) more after whole
        cases first <;> simpa [List.getLast?_cons] using apart
      · cases rest <;> simpa [List.getLast?_cons] using later

section Lines

theorem getLast?_of_append (single : '\n' ∉ old) (last : (old ++ rest).getLast? = some '\n') :
    rest.getLast? = some '\n' := by
  rw [List.getLast?_append, Option.or_eq_some_iff] at last
  exact last.resolve_right fun inner => single (List.mem_of_getLast? inner.2)

variable (filled : old ≠ []) (single : '\n' ∉ old)
  (edge : ∀ after, fits (some '\n') after ↔ fits none after)

include filled single in
theorem Replaced.getLast? (made : Replaced fits old new before text out)
    (last : text.getLast? = some '\n') : out.getLast? = some '\n' := by
  induction made with
  | done => cases last
  | put fit later ih =>
      rw [List.getLast?_append, ih (getLast?_of_append single last), Option.some_or]
  | @keep before c rest out free later ih =>
      cases rest with
      | nil =>
          rw [later.of_nil filled]
          exact last
      | cons d tail => rw [List.getLast?_cons, ih last, Option.getD_some]

include filled single edge in
-- No occurrence goes over the line feed at the end of the first text, so none sees the second.
theorem Replaced.append {second made : List Char} (first : Replaced fits old new before text out)
    (ended : text.getLast?.or before = some '\n') (next : Replaced fits old new none second made) :
    Replaced fits old new before (text ++ second) (out ++ made) := by
  induction first with
  | done before =>
      cases ended
      exact next.after edge
  | @put before rest out fit later ih =>
      have whole : (old ++ rest).getLast? = some '\n' := by
        obtain ⟨last, found⟩ := Option.isSome_iff_exists.1 (List.getLast?_isSome.2 filled)
        simpa [List.getLast?_append, found] using ended
      have inner := getLast?_of_append single whole
      obtain ⟨c, tail, rfl⟩ := List.exists_cons_of_ne_nil (l := rest) (by rintro rfl; cases inner)
      rw [List.append_assoc, List.append_assoc]
      exact .put fit (ih (by simp [inner]))
  | @keep before c rest out free later ih =>
      have last : (c :: rest).getLast? = some '\n' := by simpa using ended
      refine .keep (fun after whole fit => ?_) (ih (by simpa [List.getLast?_cons] using last))
      change (c :: rest) ++ second = old ++ after at whole
      rw [List.append_eq_append_iff] at whole
      rcases whole with ⟨beyond, longer, -⟩ | ⟨inner, split, rfl⟩
      · refine single ?_
        rw [longer]
        exact List.mem_append_left _ (List.mem_of_getLast? last)
      · -- What is left of the first text after the occurrence ends in the line feed.
        rw [split] at last
        have more := getLast?_of_append single last
        obtain ⟨d, tail, rfl⟩ := List.exists_cons_of_ne_nil (l := inner) (by rintro rfl; cases more)
        exact free _ split fit

include filled single edge in
theorem replaced_lines {make : List Char → List Char}
    (each : ∀ line, Replaced fits old new none line (make line)) (text : List Char) :
    Replaced fits old new none text ((splitLines text).flatMap make) := by
  have joined : ∀ lines : List (List Char), (∀ line ∈ lines.dropLast, endsLine line = true) →
      Replaced fits old new none lines.flatten (lines.flatMap make) := by
    intro lines ended
    induction lines with
    | nil => exact .done none
    | cons line rest ih =>
        cases rest with
        | nil => simpa using each line
        | cons next more =>
            rw [List.dropLast_cons_of_ne_nil (List.cons_ne_nil _ _), List.forall_mem_cons] at ended
            have last : line.getLast? = some '\n' := by simpa [endsLine] using ended.1
            rw [List.flatten_cons, List.flatMap_cons]
            exact (each line).append filled single edge (by simp [last]) (ih ended.2)
  have whole := joined (splitLines text) fun line member => endsLine_of_mem_dropLast member
  rwa [flatten_splitLines] at whole

end Lines

end Relation

section Function

variable {whole : Bool} {old new text : List Char} {before : Option Char}

-- Between which characters the functions replace an occurrence. Each end of a whole word has to be
-- a boundary, where exactly one of the two characters is a word character.
def Fits (whole : Bool) (old : List Char) (before after : Option Char) : Prop :=
  whole = true → before.any isWordChar ≠ old.head?.any isWordChar ∧
    old.getLast?.any isWordChar ≠ after.any isWordChar

theorem startsWithWord_eq (text : List Char) :
    startsWithWord text = text.head?.any isWordChar := by
  cases text <;> rfl

theorem boundaries_iff (filled : old ≠ []) (rest : List Char) :
    (whole && !(isBoundary before (old ++ rest) && isBoundary old.getLast? rest)) = false ↔
      Fits whole old before rest.head? := by
  obtain ⟨c, more, rfl⟩ := List.exists_cons_of_ne_nil filled
  cases whole <;> simp [Fits, isBoundary, startsWithWord_eq]

theorem occurrence?_eq_some_iff (filled : old ≠ []) {rest : List Char} :
    occurrence? whole old before text = some rest ↔
      text = old ++ rest ∧ Fits whole old before rest.head? := by
  rw [occurrence?, ← after?_eq_some_iff]
  cases found : after? old text with
  | none => simp
  | some tail =>
      rw [after?_eq_some_iff] at found
      subst found
      by_cases fit : Fits whole old before tail.head?
      · have bounded := (boundaries_iff filled tail).2 fit
        simp only [bounded, Bool.false_eq_true, if_false, Option.some.injEq]
        exact ⟨fun same => ⟨same, same ▸ fit⟩, And.left⟩
      · have apart := mt (boundaries_iff filled tail).1 fit
        rw [Bool.not_eq_false] at apart
        simp only [apart, if_true, Option.some.injEq]
        exact ⟨nofun, fun ⟨same, other⟩ => absurd (same ▸ other) fit⟩

theorem replaceFrom_put (filled : old ≠ []) (new : List Char) {c : Char} {text rest : List Char}
    (found : occurrence? whole old before (c :: text) = some rest) :
    replaceFrom whole old new before (c :: text) =
      some (new ++ (replaceFrom whole old new old.getLast? rest).getD rest) := by
  rw [replaceFrom]
  split
  · rename_i other same
    cases found.symm.trans same
    rw [if_neg (by simp [filled])]
  · rename_i absent
    cases found.symm.trans absent

theorem replaceFrom_keep (new : List Char) {c : Char} {text : List Char}
    (absent : occurrence? whole old before (c :: text) = none) :
    replaceFrom whole old new before (c :: text) =
      (replaceFrom whole old new (some c) text).map (c :: ·) := by
  rw [replaceFrom]
  split
  · rename_i rest found
    cases absent.symm.trans found
  · rfl

theorem free_of_absent (filled : old ≠ []) (absent : occurrence? whole old before text = none) :
    ∀ after, text = old ++ after → ¬ Fits whole old before after.head? := by
  intro after split fit
  rw [(occurrence?_eq_some_iff filled).2 ⟨split, fit⟩] at absent
  cases absent

theorem replaced_replaceFrom (filled : old ≠ []) (new : List Char) (before : Option Char)
    (text : List Char) :
    Replaced (Fits whole old) old new before text
      ((replaceFrom whole old new before text).getD text) := by
  induction before, text using replaceFrom.induct whole old with
  | case1 before =>
      rw [replaceFrom]
      exact .done before
  | case2 before c text rest found empty => simp [filled] at empty
  | case3 before c text rest found _ ih =>
      obtain ⟨split, fit⟩ := (occurrence?_eq_some_iff filled).1 found
      rw [replaceFrom_put filled new found, split]
      exact .put fit ih
  | case4 before c text absent ih =>
      have kept : ((replaceFrom whole old new before (c :: text)).getD (c :: text)) =
          c :: (replaceFrom whole old new (some c) text).getD text := by
        rw [replaceFrom_keep new absent]
        cases replaceFrom whole old new (some c) text <;> rfl
      rw [kept]
      exact .keep (free_of_absent filled absent) ih

theorem isSome_replaceFrom (filled : old ≠ []) (new : List Char) (before : Option Char)
    (text : List Char) :
    (replaceFrom whole old new before text).isSome = true ↔
      Occurs (Fits whole old) old before text := by
  induction before, text using replaceFrom.induct whole old with
  | case1 before =>
      rw [replaceFrom]
      refine ⟨fun some => (nomatch some), fun ⟨front, after, split, _⟩ => ?_⟩
      simp [filled] at split
  | case2 before c text rest found empty => simp [filled] at empty
  | case3 before c text rest found _ ih =>
      rw [replaceFrom_put filled new found]
      exact ⟨fun _ => ⟨[], rest, (occurrence?_eq_some_iff filled).1 found⟩, fun _ => rfl⟩
  | case4 before c text absent ih =>
      rw [replaceFrom_keep new absent, Option.isSome_map, ih]
      constructor
      · rintro ⟨front, after, rfl, fit⟩
        refine ⟨c :: front, after, rfl, ?_⟩
        cases front <;> simpa [List.getLast?_cons] using fit
      · rintro ⟨front, after, split, fit⟩
        cases front with
        | nil => exact absurd fit (free_of_absent filled absent after split)
        | cons d front =>
            cases split
            refine ⟨front, after, rfl, ?_⟩
            cases front <;> simpa [List.getLast?_cons] using fit

def replaceAll (whole : Bool) (old new text : List Char) : List Char :=
  (replace? whole old new text).getD text

theorem replaced_replaceAll (filled : old ≠ []) (new text : List Char) :
    Replaced (Fits whole old) old new none text (replaceAll whole old new text) :=
  replaced_replaceFrom filled new none text

theorem isSome_replace? (filled : old ≠ []) (new text : List Char) :
    (replace? whole old new text).isSome = true ↔ Occurs (Fits whole old) old none text :=
  isSome_replaceFrom filled new none text

-- A line feed is no word character, so it bounds a word as the edge of a text does.
theorem fits_feed (whole : Bool) (old : List Char) (after : Option Char) :
    Fits whole old (some '\n') after ↔ Fits whole old none after := by
  have feed : isWordChar '\n' = false := by decide
  simp [Fits, feed]

theorem replaceAll_lines (filled : old ≠ []) (single : '\n' ∉ old) (new text : List Char) :
    replaceAll whole old new text = (splitLines text).flatMap (replaceAll whole old new) :=
  (replaced_lines filled single (fits_feed whole old) (replaced_replaceAll filled new) text).unique
    filled (replaced_replaceAll filled new text)

theorem endsLine_replaceAll (filled : old ≠ []) (single : '\n' ∉ old) (new : List Char)
    {line : List Char} (ended : endsLine line = true) :
    endsLine (replaceAll whole old new line) = true := by
  have last : line.getLast? = some '\n' := by simpa [endsLine] using ended
  have made : Replaced (Fits whole old) old new none line (replaceAll whole old new line) :=
    replaced_replaceAll filled new line
  simpa [endsLine] using made.getLast? filled single last

section Feed

theorem after?_append_feed (single : '\n' ∉ old) (text : List Char) :
    after? old (text ++ ['\n']) = (after? old text).map (· ++ ['\n']) := by
  induction old generalizing text with
  | nil => rfl
  | cons c rest ih =>
      have ⟨other, later⟩ := not_or.1 (mt List.mem_cons.2 single)
      cases text with
      | nil => simp [after?, Ne.symm other]
      | cons d tail =>
          rw [List.cons_append, after?, after?, ih later]
          split <;> rfl

theorem isBoundary_append_feed (before : Option Char) (rest : List Char) :
    isBoundary before (rest ++ ['\n']) = isBoundary before rest := by
  have feed : isWordChar '\n' = false := by decide
  cases rest with
  | nil => simp [isBoundary, startsWithWord, feed]
  | cons c tail => rfl

theorem occurrence?_append_feed (single : '\n' ∉ old) (before : Option Char) (text : List Char) :
    occurrence? whole old before (text ++ ['\n']) =
      (occurrence? whole old before text).map (· ++ ['\n']) := by
  rw [occurrence?, occurrence?, after?_append_feed single]
  cases after? old text with
  | none => rfl
  | some rest =>
      simp only [Option.map_some]
      rw [isBoundary_append_feed, isBoundary_append_feed]
      split <;> rfl

theorem replaceFrom_append_feed (filled : old ≠ []) (single : '\n' ∉ old) (new : List Char)
    (before : Option Char) (text : List Char) :
    replaceFrom whole old new before (text ++ ['\n']) =
      (replaceFrom whole old new before text).map (· ++ ['\n']) := by
  have sought (before : Option Char) (c : Char) (text : List Char) :
      occurrence? whole old before (c :: (text ++ ['\n'])) =
        (occurrence? whole old before (c :: text)).map (· ++ ['\n']) :=
    occurrence?_append_feed single before (c :: text)
  induction before, text using replaceFrom.induct whole old with
  | case1 before =>
      have absent : occurrence? whole old before ([] ++ ['\n']) = none := by
        rw [occurrence?_append_feed single]
        obtain ⟨c, rest, rfl⟩ := List.exists_cons_of_ne_nil filled
        rfl
      rw [List.nil_append, replaceFrom_keep new absent, replaceFrom, replaceFrom]
      rfl
  | case2 before c text rest found empty => simp [filled] at empty
  | case3 before c text rest found _ ih =>
      have found' := sought before c text
      rw [found] at found'
      rw [List.cons_append, replaceFrom_put filled new found', replaceFrom_put filled new found, ih]
      cases replaceFrom whole old new old.getLast? rest <;> simp
  | case4 before c text absent ih =>
      have absent' := sought before c text
      rw [absent] at absent'
      rw [List.cons_append, replaceFrom_keep new absent', replaceFrom_keep new absent, ih,
        Option.map_map, Option.map_map]
      rfl

end Feed

theorem occurs_everywhere : Occurs (Fits false old) old none text ↔ old <:+: text := by
  constructor
  · rintro ⟨front, after, rfl, _⟩
    exact ⟨front, after, rfl⟩
  · rintro ⟨front, after, rfl⟩
    exact ⟨front, after, rfl, fun whole => nomatch whole⟩

end Function

end LineLedger.Text
