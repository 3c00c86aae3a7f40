import LineLedger.Nesting

set_option autoImplicit false

namespace LineLedger.Nesting

inductive Built : Nesting → Prop where
  | empty : Built .empty
  | push {n : Nesting} (label : String) : Built n → Built (n.push label)

section Built

variable {n : Nesting}

theorem Built.pop (built : n.Built) : n.pop.Built := by
  cases built with
  | empty => exact .empty
  | push label below => exact below

@[simp] theorem Built.level_pop (built : n.Built) : n.pop.level = n.level - 1 := by
  cases built with
  | empty => rfl
  | push label below => simp

@[simp] theorem size_push (n : Nesting) (label : String) : (n.push label).size = n.size + 1 := rfl

@[simp] theorem size_pop (n : Nesting) : n.pop.size = n.size - 1 := by
  simp [size, Nesting.pop]

theorem Built.level_eq_size (built : n.Built) : n.level = n.size := by
  induction built with
  | empty => rfl
  | push label below ih => simp [ih]

theorem Built.levels (built : n.Built) :
    n.blocks.reverse.map Block.level = List.range' 1 n.size := by
  induction built with
  | empty => rfl
  | push label below ih =>
      simp only [Nesting.push, List.reverse_cons, List.map_append, ih, below.level_eq_size]
      simp [size, List.range'_concat, Nat.add_comm]

end Built

inductive Move where
  | push (label : String)
  | pop
deriving DecidableEq

def step (n : Nesting) : Move → Nesting
  | .push label => n.push label
  | .pop => n.close.2

def run (n : Nesting) (moves : List Move) : Nesting := moves.foldl step n

def Move.count (blocks : Nat) : Move → Nat
  | .push _ => blocks + 1
  | .pop => blocks - 1

def depth (moves : List Move) : Nat := moves.foldl Move.count 0

inductive Balanced : List Move → Prop where
  | nil : Balanced []
  | block {inner rest : List Move} (label : String) :
      Balanced inner → Balanced rest → Balanced (.push label :: inner ++ .pop :: rest)

def LastOpen (moves : List Move) (block : Block) : Prop :=
  ∃ before inner, moves = before ++ .push block.label :: inner ∧ Balanced inner ∧
    block.level = depth before + 1

section Run

theorem run_cons (n : Nesting) (move : Move) (rest : List Move) :
    n.run (move :: rest) = (n.step move).run rest := rfl

theorem run_append (n : Nesting) (first second : List Move) :
    n.run (first ++ second) = (n.run first).run second := by
  simp [run]

theorem built_step {n : Nesting} (built : n.Built) (move : Move) : (n.step move).Built := by
  cases move with
  | push label => exact .push label built
  | pop => exact built.pop

theorem built_run {n : Nesting} (built : n.Built) (moves : List Move) : (n.run moves).Built := by
  induction moves generalizing n with
  | nil => exact built
  | cons move rest ih => exact ih (built_step built move)

theorem size_step (n : Nesting) (move : Move) : (n.step move).size = move.count n.size := by
  cases move <;> simp [step, close, Move.count]

theorem size_foldl (n : Nesting) (moves : List Move) :
    (n.run moves).size = moves.foldl Move.count n.size := by
  induction moves generalizing n with
  | nil => rfl
  | cons move rest ih => rw [run_cons, ih, size_step, List.foldl_cons]

theorem size_run (moves : List Move) : (empty.run moves).size = depth moves :=
  size_foldl empty moves

theorem run_balanced {moves : List Move} (balanced : Balanced moves) (n : Nesting) :
    n.run moves = n := by
  induction balanced generalizing n with
  | nil => rfl
  | block label inner rest ih later =>
      rw [List.cons_append, run_cons, run_append, ih, run_cons, later]
      rfl

theorem Balanced.append {first second : List Move} (one : Balanced first)
    (other : Balanced second) : Balanced (first ++ second) := by
  induction one with
  | nil => exact other
  | block label inner rest ih later =>
      simpa using Balanced.block label inner later

theorem exists_opening {moves : List Move} {block : Block} {below : List Block}
    (found : (empty.run moves).blocks = block :: below) :
    ∃ before inner, moves = before ++ .push block.label :: inner ∧ Balanced inner ∧
      empty.run before = ⟨below⟩ ∧ block.level = depth before + 1 := by
  -- By the number of moves, because what a pop uncovers was open before the push that it closes.
  induction size : moves.length using Nat.strongRecOn generalizing moves block below with
  | ind count shorter =>
    rcases List.eq_nil_or_concat moves with rfl | ⟨earlier, last, rfl⟩
    · cases found
    · rw [List.concat_eq_append] at found size ⊢
      rw [List.length_append, List.length_singleton] at size
      rw [run_append] at found
      cases last with
      | push label =>
          have level := (built_run .empty earlier).level_eq_size
          rw [size_run] at level
          cases found
          exact ⟨earlier, [], rfl, .nil, rfl, by simp [level]⟩
      | pop =>
          have uncovered : (empty.run earlier).blocks.tail = block :: below := found
          obtain ⟨closed, topped⟩ :
              ∃ closed, (empty.run earlier).blocks = closed :: block :: below := by
            cases blocks : (empty.run earlier).blocks with
            | nil => simp [blocks] at uncovered
            | cons closed rest => exact ⟨closed, by simpa [blocks] using uncovered⟩
          obtain ⟨prior, nested, rfl, balanced, left, -⟩ :=
            shorter earlier.length (by omega) topped rfl
          rw [List.length_append, List.length_cons] at size
          obtain ⟨before, inner, rfl, around, bottom, level⟩ :=
            shorter prior.length (by omega) (congrArg blocks left) rfl
          refine ⟨before, inner ++ (.push closed.label :: nested ++ [.pop]), by simp, ?_, bottom,
            level⟩
          exact around.append (.block closed.label balanced .nil)

theorem close_eq_some_iff (moves : List Move) (block : Block) :
    (empty.run moves).close.1 = some block ↔ LastOpen moves block := by
  constructor
  · intro closed
    obtain ⟨below, found⟩ := List.head?_eq_some_iff.1 closed
    obtain ⟨before, inner, split, balanced, -, level⟩ := exists_opening found
    exact ⟨before, inner, split, balanced, level⟩
  · rintro ⟨before, inner, rfl, balanced, level⟩
    have earlier := (built_run .empty before).level_eq_size
    rw [size_run] at earlier
    rw [run_append, run_cons, run_balanced balanced]
    simp [step, close, top?, push, earlier, ← level]

end Run

theorem open_after (moves : List Move) :
    let n := empty.run moves
    n.blocks.reverse.map Block.level = List.range' 1 n.size ∧
    n.level = n.size ∧ n.size = depth moves ∧
    (∀ block, n.close.1 = some block ↔ LastOpen moves block) ∧
    (n.close.1 = none ↔ n.isEmpty = true) ∧
    n.topLabel = (n.close.1.map Block.label).getD "none" ∧
    ∀ inner, Balanced inner → ∀ m : Nesting, m.run inner = m := by
  intro n
  have built : n.Built := built_run .empty moves
  refine ⟨built.levels, built.level_eq_size, size_run moves, close_eq_some_iff moves, ?_, ?_,
    fun inner balanced m => run_balanced balanced m⟩
  · simp [close, top?, isEmpty]
  · cases blocks : n.blocks <;> simp [close, top?, topLabel, blocks, noLabel]

theorem open_after_underflow :
    let moves : List Move := [.pop, .push "if", .push "for", .pop]
    (empty.run moves).close.1 = some ⟨"if", 1⟩ ∧ depth moves = 1 ∧
    Balanced [.push "for", .pop] ∧
    (⟨[⟨"case", 4⟩]⟩ : Nesting).run [.push "for", .pop] = ⟨[⟨"case", 4⟩]⟩ := by
  intro moves
  have inner : Balanced [.push "for", .pop] := .block "for" .nil .nil
  obtain ⟨-, -, size, closed, -, -, around⟩ := open_after moves
  exact ⟨(closed ⟨"if", 1⟩).2 ⟨[.pop], _, rfl, inner, rfl⟩, size.symm, inner,
    around _ inner _⟩

end LineLedger.Nesting
