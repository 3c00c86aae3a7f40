import LineLedger.Proofs.Scan
import LineLedger.Proofs.Text.Trim

set_option autoImplicit false

namespace LineLedger

structure Move (σ : Type) where
  kept : List Char
  next : σ
  skips : Nat

-- What to do at a character with others behind it; `none` drops the rest of the line.
structure Reader (σ : Type) where
  move? : σ → Char → List Char → Option (Move σ)
  carry : σ → σ

namespace Reader

variable {σ : Type} (reader : Reader σ)

def read (state : σ) : List Char → List Char × σ
  | [] => ([], state)
  | c :: rest =>
    match reader.move? state c rest with
    | none => ([], state)
    | some move =>
      let (kept, final) := read move.next (rest.drop move.skips)
      (move.kept ++ kept, final)
termination_by text => text.length
decreasing_by
  simp only [List.length_drop, List.length_cons]
  omega

-- The state in which the machine comes to a place of the line. It comes neither to a character that
-- is taken off together with one before it nor to any behind the one where it stops.
def stateAt? (state : σ) : List Char → Nat → Option σ
  | _, 0 => some state
  | [], _ + 1 => none
  | c :: rest, place + 1 =>
    match reader.move? state c rest with
    | none => none
    | some move =>
      if place < move.skips then none
      else stateAt? move.next (rest.drop move.skips) (place - move.skips)
termination_by text => text.length
decreasing_by
  simp only [List.length_drop, List.length_cons]
  omega

section Moves

variable {reader} {state : σ} {c : Char} {rest : List Char} {move : Move σ}

@[simp] theorem read_nil (state : σ) : reader.read state [] = ([], state) := by
  rw [read]

theorem read_stop (stop : reader.move? state c rest = none) :
    reader.read state (c :: rest) = ([], state) := by
  rw [read, stop]

theorem read_move (moves : reader.move? state c rest = some move) :
    reader.read state (c :: rest) =
      (move.kept ++ (reader.read move.next (rest.drop move.skips)).1,
        (reader.read move.next (rest.drop move.skips)).2) := by
  rw [read, moves]

@[simp] theorem stateAt?_zero (state : σ) (text : List Char) :
    reader.stateAt? state text 0 = some state := by
  rw [stateAt?]

theorem stateAt?_stop (stop : reader.move? state c rest = none) (place : Nat) :
    reader.stateAt? state (c :: rest) (place + 1) = none := by
  rw [stateAt?, stop]

-- No machine comes to a character that it skips.
theorem stateAt?_skipped (moves : reader.move? state c rest = some move) {place : Nat}
    (skipped : place < move.skips) : reader.stateAt? state (c :: rest) (place + 1) = none := by
  rw [stateAt?, moves]
  exact if_pos skipped

theorem stateAt?_move (moves : reader.move? state c rest = some move) (place : Nat) :
    reader.stateAt? state (c :: rest) (move.skips + place + 1) =
      reader.stateAt? move.next (rest.drop move.skips) place := by
  rw [stateAt?, moves]
  simp only [Nat.not_lt.2 (Nat.le_add_right ..), if_false, Nat.add_sub_cancel_left]

theorem stateAt?_induction {there : σ} {motive : σ → List Char → Nat → Prop}
    (here : ∀ text, motive there text 0)
    (onward : ∀ state c rest move place, reader.move? state c rest = some move →
      motive move.next (rest.drop move.skips) place →
      motive state (c :: rest) (move.skips + place + 1)) {text : List Char} {place : Nat}
    (comes : reader.stateAt? state text place = some there) : motive state text place := by
  induction state, text, place using stateAt?.induct reader with
  | case1 state text =>
    rw [stateAt?_zero] at comes
    cases comes
    exact here text
  | case2 state place =>
    rw [stateAt?] at comes
    cases comes
  | case3 state c rest place stop =>
    rw [stateAt?_stop stop] at comes
    cases comes
  | case4 state c rest place move moves skipped =>
    rw [stateAt?_skipped moves skipped] at comes
    cases comes
  | case5 state c rest place move moves reached ih =>
    have after := stateAt?_move moves (place - move.skips)
    have goal := onward state c rest move (place - move.skips) moves
    rw [Nat.add_sub_cancel' (Nat.le_of_not_lt reached)] at after goal
    exact goal (ih (after.symm.trans comes))

theorem read_stateAt? {text : List Char} {place : Nat} {there : σ}
    (comes : reader.stateAt? state text place = some there) :
    ∃ kept, reader.read state text =
      (kept ++ (reader.read there (text.drop place)).1,
        (reader.read there (text.drop place)).2) := by
  refine stateAt?_induction (motive := fun state text place => ∃ kept, reader.read state text =
    (kept ++ (reader.read there (text.drop place)).1, (reader.read there (text.drop place)).2))
    (fun text => ⟨[], rfl⟩) ?_ comes
  intro state c rest move place moves ⟨kept, later⟩
  rw [List.drop_drop] at later
  rw [read_move moves, later]
  exact ⟨move.kept ++ kept, by rw [List.append_assoc]; rfl⟩

section Invariant

variable {P : σ → Prop} (preserved : ∀ {state c rest move}, P state →
  reader.move? state c rest = some move → P move.next)

include preserved

theorem read_invariant {state : σ} (holds : P state) (text : List Char) :
    P (reader.read state text).2 := by
  induction state, text using read.induct reader with
  | case1 state => rwa [read_nil]
  | case2 state c rest stop => rwa [read_stop stop]
  | case3 state c rest move moves _ _ _ ih =>
    rw [read_move moves]
    exact ih (preserved holds moves)

theorem stateAt?_invariant {text : List Char} {place : Nat} {there : σ}
    (comes : reader.stateAt? state text place = some there) (holds : P state) :
    P there := by
  refine stateAt?_induction (motive := fun state _ _ => P state → P there)
    (fun text holds => holds) ?_ comes holds
  intro state c rest move place moves later holds
  exact later (preserved holds moves)

end Invariant

end Moves

section Like

-- A likeness of lines that the moves follow: they are the same at both lines, and what they leave
-- is alike again.
structure Follows (like : σ → List Char → List Char → Prop) : Prop where
  ends : ∀ {state other}, like state [] other → other = []
  moves : ∀ {state c rest other}, like state (c :: rest) other →
    ∃ d tail, other = d :: tail ∧ reader.move? state d tail = reader.move? state c rest ∧
      ∀ move, reader.move? state c rest = some move →
        like move.next (rest.drop move.skips) (tail.drop move.skips)

variable {reader} {like : σ → List Char → List Char → Prop}

theorem read_eq_of_like (follows : reader.Follows like) {state : σ} {line other : List Char}
    (alike : like state line other) : reader.read state other = reader.read state line := by
  induction state, line using read.induct reader generalizing other with
  | case1 state => rw [follows.ends alike]
  | case2 state c rest stop =>
    obtain ⟨d, tail, rfl, same, _⟩ := follows.moves alike
    rw [read_stop stop, read_stop (same.trans stop)]
  | case3 state c rest move moves _ _ _ ih =>
    obtain ⟨d, tail, rfl, same, later⟩ := follows.moves alike
    rw [read_move moves, read_move (same.trans moves), ih (later move moves)]

-- The other line has some characters exchanged, each as the state allows in which the machine comes
-- to it.
structure Alike (reader : Reader σ) (allows : σ → Char → Char → Bool) (state : σ)
    (one other : List Char) : Prop where
  length : other.length = one.length
  exchanged : ∀ place < one.length, other[place]? = one[place]? ∨
    ∃ there ∈ reader.stateAt? state one place, ∃ c ∈ one[place]?, ∃ d ∈ other[place]?,
      allows there c d = true

instance (allows : σ → Char → Char → Bool) (state : σ) (one other : List Char) :
    Decidable (reader.Alike allows state one other) :=
  decidable_of_iff (other.length = one.length ∧ ∀ place < one.length,
      other[place]? = one[place]? ∨ (reader.stateAt? state one place).any fun there =>
        one[place]?.any fun c => other[place]?.any fun d => allows there c d)
    ⟨fun ⟨length, exchanged⟩ => ⟨length, by simpa [Option.any_eq_true] using exchanged⟩,
      fun alike => ⟨alike.length, by simpa [Option.any_eq_true] using alike.exchanged⟩⟩

namespace Alike

variable {allows : σ → Char → Char → Bool} {state : σ} {c d : Char} {rest tail other : List Char}
  {move : Move σ}

theorem nil (alike : reader.Alike allows state [] other) : other = [] :=
  List.length_eq_zero_iff.1 alike.length

theorem cons (alike : reader.Alike allows state (c :: rest) other) :
    ∃ d tail, other = d :: tail ∧ (d = c ∨ allows state c d = true) := by
  obtain ⟨d, tail, rfl⟩ := List.exists_cons_of_length_eq_add_one alike.length
  refine ⟨d, tail, rfl, ?_⟩
  simpa using alike.exchanged 0 (Nat.zero_lt_succ _)

theorem starts (alike : reader.Alike allows state rest (d :: tail))
    (fixed : ∀ c, allows state c d = false) : ∃ more, rest = d :: more := by
  cases rest with
  | nil => cases alike.nil
  | cons e more =>
    obtain ⟨_, _, same, here | allowed⟩ := alike.cons
    · cases same
      exact ⟨more, here ▸ rfl⟩
    · cases same
      rw [fixed] at allowed
      cases allowed

theorem take_eq (alike : reader.Alike allows state (c :: rest) (d :: tail))
    (moves : reader.move? state c rest = some move) :
    tail.take move.skips = rest.take move.skips := by
  have length := Nat.succ.inj alike.length
  refine List.ext_getElem? fun place => ?_
  by_cases skipped : place < move.skips ∧ place < rest.length
  · have exchanged := alike.exchanged (place + 1) (Nat.succ_lt_succ skipped.2)
    simpa [stateAt?_skipped moves skipped.1, List.getElem?_take_of_lt skipped.1] using exchanged
  · rw [List.getElem?_eq_none (by simp; omega), List.getElem?_eq_none (by simp; omega)]

theorem stopped (alike : reader.Alike allows state (c :: rest) (d :: tail))
    (stop : reader.move? state c rest = none) : tail = rest := by
  have length := Nat.succ.inj alike.length
  refine List.ext_getElem? fun place => ?_
  by_cases within : place < rest.length
  · have exchanged := alike.exchanged (place + 1) (Nat.succ_lt_succ within)
    simpa [stateAt?_stop stop] using exchanged
  · rw [List.getElem?_eq_none (by omega), List.getElem?_eq_none (by omega)]

theorem drop (alike : reader.Alike allows state (c :: rest) (d :: tail))
    (moves : reader.move? state c rest = some move) :
    reader.Alike allows move.next (rest.drop move.skips) (tail.drop move.skips) where
  length := by
    have length := Nat.succ.inj alike.length
    simp only [List.length_drop, length]
  exchanged place within := by
    rw [List.length_drop] at within
    have exchanged := alike.exchanged (move.skips + place + 1) (by simp; omega)
    rw [stateAt?_move moves] at exchanged
    simpa [Nat.add_right_comm] using exchanged

end Alike

def AlikeLines (reader : Reader σ) (like : σ → List Char → List Char → Prop) :
    σ → List (List Char) → List (List Char) → Prop
  | _, [], [] => True
  | state, line :: rest, other :: others =>
    like state line other ∧
      reader.AlikeLines like (reader.carry (reader.read state line).2) rest others
  | _, [], _ :: _ => False
  | _, _ :: _, [] => False

instance decidableAlikeLines (reader : Reader σ) (like : σ → List Char → List Char → Prop)
    [∀ state line other, Decidable (like state line other)] :
    ∀ state lines others, Decidable (reader.AlikeLines like state lines others)
  | _, [], [] => inferInstanceAs (Decidable True)
  | state, line :: rest, other :: others =>
    have := decidableAlikeLines reader like (reader.carry (reader.read state line).2) rest others
    inferInstanceAs (Decidable (like state line other ∧ _))
  | _, [], _ :: _ => inferInstanceAs (Decidable False)
  | _, _ :: _, [] => inferInstanceAs (Decidable False)

theorem AlikeLines.length_eq {state : σ} {lines others : List (List Char)}
    (alike : reader.AlikeLines like state lines others) : others.length = lines.length := by
  induction lines generalizing state others with
  | nil =>
    cases others with
    | nil => rfl
    | cons other more => cases alike
  | cons line rest ih =>
    cases others with
    | nil => cases alike
    | cons other more => rw [List.length_cons, List.length_cons, ih alike.2]

end Like

section Breaks

-- A line break is kept or dropped, and no move looks for one.
structure IgnoresBreaks : Prop where
  ahead : ∀ {state c rest breaks}, (∀ b ∈ breaks, Text.isBreak b = true) →
    reader.move? state c (rest ++ breaks) = reader.move? state c rest
  within : ∀ {state c rest move}, reader.move? state c rest = some move → move.skips ≤ rest.length
  alone : ∀ {state c rest}, Text.isBreak c = true → ∃ kept next,
    reader.move? state c rest = some ⟨kept, next, 0⟩ ∧ (kept = [] ∨ kept = [c]) ∧
      reader.carry next = reader.carry state

variable {reader} {breaks : List Char}

theorem read_breaks (ignores : reader.IgnoresBreaks) (all : ∀ b ∈ breaks, Text.isBreak b = true)
    (state : σ) : (∀ c ∈ (reader.read state breaks).1, Text.isBreak c = true) ∧
      reader.carry (reader.read state breaks).2 = reader.carry state := by
  induction breaks generalizing state with
  | nil => simp
  | cons c rest ih =>
    have ⟨here, later⟩ := List.forall_mem_cons.1 all
    obtain ⟨kept, next, moves, few, carried⟩ := @ignores.alone state c rest here
    have ⟨ended, settled⟩ := ih later next
    rw [read_move moves]
    refine ⟨fun d member => ?_, settled.trans carried⟩
    rcases List.mem_append.1 member with first | more
    · rcases few with rfl | rfl
      · cases first
      · exact List.mem_singleton.1 first ▸ here
    · exact ended d more

theorem read_append_breaks (ignores : reader.IgnoresBreaks)
    (all : ∀ b ∈ breaks, Text.isBreak b = true) (state : σ) (line : List Char) :
    ∃ after, (∀ c ∈ after, Text.isBreak c = true) ∧
      (reader.read state (line ++ breaks)).1 = (reader.read state line).1 ++ after ∧
      reader.carry (reader.read state (line ++ breaks)).2 =
        reader.carry (reader.read state line).2 := by
  induction state, line using read.induct reader with
  | case1 state =>
    have ⟨ended, carried⟩ := read_breaks ignores all state
    exact ⟨_, ended, by simp, by simpa using carried⟩
  | case2 state c rest stop =>
    have stop' := (ignores.ahead all).trans stop
    rw [List.cons_append, read_stop stop, read_stop stop']
    exact ⟨[], by simp, rfl, rfl⟩
  | case3 state c rest move moves _ _ _ ih =>
    have moves' := (ignores.ahead all).trans moves
    obtain ⟨after, ended, code, carried⟩ := ih
    rw [← List.drop_append_of_le_length (ignores.within moves)] at code carried
    rw [List.cons_append, read_move moves, read_move moves', code]
    exact ⟨after, ended, (List.append_assoc ..).symm, carried⟩

theorem read_chomp (ignores : reader.IgnoresBreaks) (state : σ) (line : List Char) :
    ∃ after, (∀ c ∈ after, Text.isBreak c = true) ∧
      (reader.read state line).1 = (reader.read state (Text.chomp line)).1 ++ after ∧
      reader.carry (reader.read state line).2 =
        reader.carry (reader.read state (Text.chomp line)).2 := by
  obtain ⟨breaks, split, all⟩ := Text.exists_dropped Text.isBreak line
  have read := read_append_breaks ignores all state (Text.chomp line)
  rwa [Text.chomp, ← split] at read

end Breaks

structure Drives {τ : Type} (scanner : Scanner τ) (like : σ → List Char → List Char → Prop)
    (enter : τ → σ) : Prop where
  same : ∀ {state line other}, like (enter state) line other →
    scanner.step state other = scanner.step state line
  onward : ∀ state line,
    enter (scanner.step state line).2 = reader.carry (reader.read (enter state) line).2
  chomps : ∀ state line, scanner.step state (Text.chomp line) = scanner.step state line

section Drives

variable {reader} {τ : Type} {scanner : Scanner τ} {like : σ → List Char → List Char → Prop}
  {enter : τ → σ}

theorem Drives.tags_eq (drives : reader.Drives scanner like enter) {state : τ}
    {lines others : List (List Char)} (alike : reader.AlikeLines like (enter state) lines others) :
    scanner.tags state others = scanner.tags state lines := by
  induction lines generalizing state others with
  | nil =>
    cases others with
    | nil => rfl
    | cons other more => cases alike
  | cons line rest ih =>
    cases others with
    | nil => cases alike
    | cons other more =>
      have ⟨here, later⟩ := alike
      rw [← drives.onward] at later
      rw [Scanner.tags_cons, Scanner.tags_cons, drives.same here, ih later]

theorem Drives.scan_eq (drives : reader.Drives scanner like enter) {source other : List Char}
    (alike : reader.AlikeLines like (enter scanner.start) (Text.splitLines source)
      (Text.splitLines other)) :
    (scanner.scan other).map (fun m => (m.line, m.tag)) =
      (scanner.scan source).map fun m => (m.line, m.tag) := by
  rw [scanner.places_scan drives.chomps, scanner.places_scan drives.chomps, alike.length_eq,
    drives.tags_eq alike]

end Drives

end Reader

end LineLedger
