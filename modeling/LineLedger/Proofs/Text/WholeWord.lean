import LineLedger.Proofs.Text.Replace
import LineLedger.Proofs.Text.Trim
import Mathlib.Data.List.SplitBy

set_option autoImplicit false

namespace LineLedger.Text

def Bounded (before after : Option Char) : Prop :=
  before.any isWordChar = false ∧ after.any isWordChar = false

instance (before after : Option Char) : Decidable (Bounded before after) :=
  inferInstanceAs (Decidable (_ ∧ _))

def WordEnds (old : List Char) : Prop :=
  old.head?.any isWordChar = true ∧ old.getLast?.any isWordChar = true

instance (old : List Char) : Decidable (WordEnds old) := inferInstanceAs (Decidable (_ ∧ _))

section Ends

variable {old : List Char}

theorem fits_iff_bounded (ends : WordEnds old) (before after : Option Char) :
    Fits true old before after ↔ Bounded before after := by
  simp [Fits, Bounded, ends.1, ends.2]

theorem wordEnds_of_fits (fit : Fits true old none none) : WordEnds old := by
  simpa [Fits, WordEnds] using fit

theorem occurs_self {fits : Option Char → Option Char → Prop}
    (occurs : Occurs fits old none old) : fits none none := by
  obtain ⟨front, after, split, fit⟩ := occurs
  have none : front = [] ∧ after = [] := by
    have length := congrArg List.length split
    simp only [List.length_append] at length
    exact ⟨List.length_eq_zero_iff.1 (by omega), List.length_eq_zero_iff.1 (by omega)⟩
  simpa [none] using fit

theorem replaced_bounded_iff (filled : old ≠ []) :
    (∀ new line, Replaced Bounded old new none line (replaceAll true old new line)) ↔
      WordEnds old := by
  constructor
  · intro bounded
    -- A text that is one occurrence has to become the new text.
    have made : Replaced Bounded old [] none (old ++ []) (replaceAll true old [] old) := by
      simpa using bounded [] old
    obtain ⟨later, whole, rest⟩ := made.of_fit filled ⟨rfl, rfl⟩
    rw [rest.of_nil filled] at whole
    have changed : (replace? true old [] old).isSome = true := by
      cases kept : replace? true old [] old with
      | some _ => rfl
      | none =>
          rw [replaceAll, kept] at whole
          exact absurd whole filled
    exact wordEnds_of_fits (occurs_self ((isSome_replace? filled [] old).1 changed))
  · exact fun ends new line => (replaced_replaceAll filled new line).congr (fits_iff_bounded ends)

end Ends

section Runs

def sameKind (a b : Char) : Bool := isWordChar a == isWordChar b

def runs (text : List Char) : List (List Char) := text.splitBy sameKind

def replaceRuns (old new text : List Char) : List Char :=
  (runs text).flatMap fun run => if run = old then new else run

variable {run rest old : List Char} {wordy : Bool}

theorem runs_append {first second : List Char} (apart : ∀ a ∈ first.getLast?,
    ∀ b ∈ second.head?, sameKind a b = false) :
    runs (first ++ second) = runs first ++ runs second :=
  List.splitBy_append apart

theorem runs_of_alike (filled : run ≠ []) (alike : ∀ c ∈ run, isWordChar c = wordy) :
    runs run = [run] := by
  refine List.splitBy_of_isChain filled (List.Pairwise.isChain ?_)
  exact List.pairwise_of_forall_mem_list fun a first b second => by
    simp [sameKind, alike a first, alike b second]

theorem runs_cons (filled : run ≠ []) (alike : ∀ c ∈ run, isWordChar c = wordy)
    (stops : ∀ c, rest.head? = some c → isWordChar c = !wordy) :
    runs (run ++ rest) = run :: runs rest := by
  rw [runs_append, runs_of_alike filled alike, List.singleton_append]
  intro a last b first
  simp [sameKind, alike a (List.mem_of_getLast? last), stops b first]

theorem runs_induction {motive : List Char → Prop} (nil : motive [])
    (step : ∀ (run rest : List Char) (wordy : Bool), run ≠ [] →
      (∀ c ∈ run, isWordChar c = wordy) → (∀ c, rest.head? = some c → isWordChar c = !wordy) →
      motive rest → motive (run ++ rest)) (text : List Char) : motive text := by
  induction length : text.length using Nat.strongRecOn generalizing text with
  | ind count ih =>
      cases text with
      | nil => exact nil
      | cons c tail =>
          have whole : c :: tail =
              (c :: tail.takeWhile (sameKind c)) ++ tail.dropWhile (sameKind c) := by
            rw [List.cons_append, List.takeWhile_append_dropWhile]
          have shorter : (tail.dropWhile (sameKind c)).length < count := by
            have := (List.dropWhile_sublist (sameKind c) (l := tail)).length_le
            rw [List.length_cons] at length
            omega
          rw [whole]
          refine step _ _ (isWordChar c) (List.cons_ne_nil _ _) ?_ ?_ (ih _ shorter _ rfl)
          · refine List.forall_mem_cons.2 ⟨rfl, fun d member => ?_⟩
            have taken := List.all_eq_true.1 List.all_takeWhile d member
            exact (beq_iff_eq.1 taken).symm
          · intro d first
            have stopped := List.head?_dropWhile_not (sameKind c) tail
            rw [first] at stopped
            exact Bool.eq_not.2 (beq_eq_false_iff_ne.1 stopped).symm

variable {new text : List Char}

theorem replaceRuns_cons (filled : run ≠ []) (alike : ∀ c ∈ run, isWordChar c = wordy)
    (stops : ∀ c, rest.head? = some c → isWordChar c = !wordy) :
    replaceRuns old new (run ++ rest) =
      (if run = old then new else run) ++ replaceRuns old new rest := by
  rw [replaceRuns, runs_cons filled alike stops, List.flatMap_cons, replaceRuns]

section Word

def Apart (before : Option Char) (text : List Char) : Prop :=
  before.any isWordChar = true → text.head?.any isWordChar = false

theorem apart_none (text : List Char) : Apart none text := fun left => Bool.noConfusion left

theorem apart_of_stops (before : Option Char) (filled : run ≠ [])
    (alike : ∀ c ∈ run, isWordChar c = wordy)
    (stops : ∀ c, rest.head? = some c → isWordChar c = !wordy) :
    Apart (run.getLast?.or before) rest := by
  obtain ⟨last, found⟩ := Option.isSome_iff_exists.1 (List.getLast?_isSome.2 filled)
  intro word
  rw [found, Option.some_or, Option.any_some, alike last (List.mem_of_getLast? found)] at word
  rw [Option.any_eq_false]
  exact fun c first => by simp [stops c first, word]

variable (filled : old ≠ []) (word : ∀ c ∈ old, isWordChar c = true)

include filled word

theorem wordEnds_of_word : WordEnds old := by
  obtain ⟨c, tail, rfl⟩ := List.exists_cons_of_ne_nil filled
  obtain ⟨last, found⟩ := Option.isSome_iff_exists.1 (List.getLast?_isSome.2 filled)
  exact ⟨word c (List.mem_cons_self ..), by simp [found, word last (List.mem_of_getLast? found)]⟩

-- A run that is equal to the word is a bounded occurrence of it.
theorem bounded_run {before : Option Char} (apart : Apart before (old ++ rest))
    (stops : ∀ c, rest.head? = some c → isWordChar c = !wordy)
    (alike : ∀ c ∈ old, isWordChar c = wordy) : Bounded before rest.head? := by
  obtain ⟨c, tail, rfl⟩ := List.exists_cons_of_ne_nil filled
  have begins := word c (List.mem_cons_self ..)
  have wordy : wordy = true := (alike c (List.mem_cons_self ..)).symm.trans begins
  refine ⟨?_, (Option.any_eq_false ..).2 fun d first => by simp [stops d first, wordy]⟩
  rw [← Bool.not_eq_true]
  exact fun left => Bool.false_ne_true ((apart left).symm.trans begins)

-- No bounded occurrence starts within another run.
theorem not_bounded_in_run (other : run ≠ old) (alike : ∀ c ∈ run, isWordChar c = wordy)
    (stops : ∀ c, rest.head? = some c → isWordChar c = !wordy) {before : Option Char}
    {first second after : List Char} (split : run = first ++ second) (more : second ≠ [])
    (whole : second ++ rest = old ++ after) :
    ¬ Bounded (first.getLast?.or before) after.head? := by
  rintro ⟨left, right⟩
  -- The occurrence starts where what is left of the run does, so the run is one of word characters.
  have wordy : wordy = true := by
    obtain ⟨c, tail, rfl⟩ := List.exists_cons_of_ne_nil more
    obtain ⟨d, old, rfl⟩ := List.exists_cons_of_ne_nil filled
    rw [← alike c (by simp [split]), (List.cons.inj whole).1, word d (List.mem_cons_self ..)]
  subst wordy
  cases before' : first.getLast? with
  | some last =>
      have member : last ∈ run := split ▸ List.mem_append_left _ (List.mem_of_getLast? before')
      simp [before', alike last member] at left
  | none =>
      rw [List.getLast?_eq_none_iff.1 before', List.nil_append] at split
      refine other ?_
      have stopped : ∀ c, after.head? = some c → isWordChar c = false := fun c first => by
        simpa [first] using right
      rw [← takeWhile_append_of_stops alike stops, split, whole,
        takeWhile_append_of_stops word stopped]

theorem replaced_runs {before : Option Char} (apart : Apart before text) :
    Replaced Bounded old new before text (replaceRuns old new text) := by
  induction text using runs_induction generalizing before with
  | nil => exact .done before
  | step run rest wordy full alike stops ih =>
      rw [replaceRuns_cons full alike stops]
      have later := ih (apart_of_stops before full alike stops)
      split
      · rename_i same
        subst same
        obtain ⟨last, found⟩ := Option.isSome_iff_exists.1 (List.getLast?_isSome.2 filled)
        rw [found] at later
        exact .put (bounded_run filled word apart stops alike) (found ▸ later)
      · rename_i other
        exact .keepAll (fun _ _ split more _ whole =>
          not_bounded_in_run filled word other alike stops split more whole) later

theorem replaceAll_runs (new text : List Char) :
    replaceAll true old new text = replaceRuns old new text := by
  have bounds := fits_iff_bounded (wordEnds_of_word filled word)
  exact (replaced_runs filled word (apart_none text)).unique filled
    ((replaced_replaceAll filled new text).congr bounds)

theorem occurs_bounded_iff {before : Option Char} (apart : Apart before text) :
    Occurs Bounded old before text ↔ old ∈ runs text := by
  constructor
  · rintro ⟨front, after, rfl, left, right⟩
    have ends := wordEnds_of_word filled word
    rw [runs_append, runs_append, runs_of_alike filled word]
    · simp
    · intro a last b first
      have begins : isWordChar b = true := by simpa [Option.mem_def.1 first] using ends.1
      have before : isWordChar a = false := by simpa [Option.mem_def.1 last] using left
      simp [sameKind, begins, before]
    · intro a last b first
      have found : old.getLast? = some a := by
        obtain ⟨c, found⟩ := Option.isSome_iff_exists.1 (List.getLast?_isSome.2 filled)
        simpa [List.getLast?_append, found] using last
      have before : isWordChar a = true := by simpa [found] using ends.2
      have next : isWordChar b = false := by simpa [Option.mem_def.1 first] using right
      simp [sameKind, before, next]
  · intro member
    induction text using runs_induction generalizing before with
    | nil => exact nomatch member
    | step run rest wordy full alike stops ih =>
        rw [runs_cons full alike stops, List.mem_cons] at member
        rcases member with rfl | later
        · exact ⟨[], rest, rfl, bounded_run filled word apart stops alike⟩
        · obtain ⟨front, after, rfl, fit⟩ :=
            ih (apart_of_stops before full alike stops) later
          refine ⟨run ++ front, after, by simp, ?_⟩
          simpa [List.getLast?_append, Option.or_assoc] using fit

theorem isSome_replace?_runs (new text : List Char) :
    (replace? true old new text).isSome = true ↔ old ∈ runs text := by
  rw [isSome_replace? filled, ← occurs_bounded_iff filled word (apart_none text)]
  simp only [Occurs, fits_iff_bounded (wordEnds_of_word filled word)]

end Word

end Runs

end LineLedger.Text
