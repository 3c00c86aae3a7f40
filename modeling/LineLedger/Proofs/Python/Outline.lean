import LineLedger.Proofs.Scan.Records
import Mathlib.Logic.Function.Iterate

set_option autoImplicit false

namespace LineLedger.Python

mutual

def Tree.nodes (around : List Tree) : Tree → List Node
  | .node label start stop children =>
    ⟨.node label start stop children, around⟩ ::
      Tree.nodesOf (.node label start stop children :: around) children

def Tree.nodesOf (around : List Tree) : List Tree → List Node
  | [] => []
  | t :: rest => t.nodes around ++ Tree.nodesOf around rest

end

def definitions (trees : List Tree) : Nat :=
  (trees.filter fun t => !t.isError).countP Tree.opensScope

def Node.owner? (n : Node) : Option Tree := (n.tree :: n.around).find? fun t => !t.isClause

def Node.found? (n : Node) : Option Found :=
  if n.tree.isError then none
  else
    (n.owner?.bind Tree.ownStatement?).map fun kind => ⟨kind, definitions (n.tree :: n.around)⟩

structure Statement where
  start : Position
  found : Found
deriving DecidableEq, Repr

def Node.statement (n : Node) : Option Statement :=
  n.found?.map fun found => ⟨n.tree.start, found⟩

def Tree.statements (t : Tree) : List Statement := (t.nodes []).filterMap Node.statement

def Node.family (n : Node) : List Node := n.tree.nodes n.around

theorem Tree.nodesOf_eq (around trees : List Tree) :
    Tree.nodesOf around trees = trees.flatMap (Tree.nodes around) := by
  induction trees with
  | nil => rfl
  | cons t rest ih => rw [Tree.nodesOf, ih, List.flatMap_cons]

theorem Node.family_eq (n : Node) : n.family = n :: n.children.flatMap Node.family := by
  obtain ⟨⟨label, start, stop, children⟩, around⟩ := n
  rw [Node.family, Tree.nodes, Tree.nodesOf_eq, Node.children, List.flatMap_map]
  rfl

section Kind

theorem Node.statement?_eq (n : Node) : n.statement? = n.owner?.bind Tree.ownStatement? := by
  obtain ⟨t, around⟩ := n
  rw [Node.statement?, Node.owner?]
  induction around generalizing t with
  | nil => cases clause : t.isClause <;> simp [Tree.statement?, clause]
  | cons parent outer ih =>
    rw [Tree.statement?, ih]
    cases clause : t.isClause <;> simp [clause]

theorem Node.isSome_statement?_of_opensScope {n : Node} (opens : n.tree.opensScope = true) :
    n.statement?.isSome = true := by
  rw [Node.statement?_eq, Node.owner?]
  simp only [Tree.opensScope, Bool.or_eq_true, decide_eq_true_eq] at opens
  rcases opens with function | definition
  · simp [Tree.isClause, Tree.clauseNames, Tree.ownStatement?, function]
  · simp [Tree.isClause, Tree.clauseNames, Tree.ownStatement?, Tree.statementNames, definition]

end Kind

section Walk

def Node.visit (n : Node) : Visit := ⟨n, definitions n.around⟩

theorem Node.node_visit (n : Node) : n.visit.node = n := rfl

theorem Node.innerLevel_visit (n : Node) :
    n.visit.innerLevel = definitions (n.tree :: n.around) := by
  rw [Visit.innerLevel, Node.visit, definitions]
  cases error : n.tree.isError with
  | true => simp [error, definitions]
  | false =>
    cases opens : n.tree.opensScope with
    | true =>
      obtain ⟨kind, known⟩ := Option.isSome_iff_exists.1 (isSome_statement?_of_opensScope opens)
      simp [error, opens, known, definitions]
    | false => cases n.statement? <;> simp [error, opens, definitions]

theorem Node.inner_visit (n : Node) : n.visit.inner = n.children.map Node.visit := by
  rw [Visit.inner, innerLevel_visit]
  refine List.map_congr_left fun child member => ?_
  obtain ⟨t, -, rfl⟩ := List.mem_map.1 member
  rfl

theorem visitAll_eq (o : Outline) (waiting : List Node) :
    visitAll o (waiting.map Node.visit) =
      (waiting.flatMap Node.family).foldl (fun o n => n.visit.record o) o := by
  generalize listed : waiting.map Node.visit = visits
  induction o, visits using visitAll.induct generalizing waiting with
  | case1 o =>
    rw [visitAll, List.map_eq_nil_iff.1 listed]
    rfl
  | case2 o v rest ih =>
    obtain ⟨n, more, rfl, rfl, rfl⟩ := List.map_eq_cons_iff.1 listed
    have next := ih (n.children ++ more) (by rw [List.map_append, n.inner_visit])
    rw [visitAll, next, List.flatMap_append, List.flatMap_cons, n.family_eq, List.cons_append,
      List.foldl_cons]

theorem outline_eq (t : Tree) :
    outline t = (t.nodes []).foldl (fun o n => n.visit.record o) .empty := by
  have walked := visitAll_eq .empty [⟨t, []⟩]
  rwa [List.flatMap_singleton] at walked

end Walk

section Report

def Outline.foundAt (o : Outline) (row : Nat) : List Found := (o.rows.get? row).getD []

theorem Outline.foundAt_add (o : Outline) (place row : Nat) (found : Found) :
    (o.add place found).foundAt row =
      o.foundAt row ++ if place = row then [found] else [] := by
  rw [foundAt, foundAt, add, Table.get?_insert]
  by_cases here : row = place
  · simp [here]
  · simp [here, Ne.symm here]

theorem Node.record_visit (n : Node) (o : Outline) :
    n.visit.record o =
      if n.tree.isError then o.addError n.tree.rowSpan
      else
        match n.statement with
        | some s => o.add s.start.row s.found
        | none => o := by
  rw [Visit.record, n.node_visit, n.innerLevel_visit, Node.statement?_eq, Node.statement,
    Node.found?]
  by_cases error : n.tree.isError = true
  · rw [if_pos error, if_pos error]
  · rw [if_neg error, if_neg error, if_neg error]
    cases n.owner?.bind Tree.ownStatement? <;> rfl

theorem Node.foundAt_record (n : Node) (o : Outline) (row : Nat) :
    (n.visit.record o).foundAt row =
      o.foundAt row ++ (n.statement.toList.filter (·.start.row = row)).map Statement.found := by
  rw [record_visit]
  by_cases error : n.tree.isError = true
  · have silent : n.statement = none := by rw [Node.statement, Node.found?, if_pos error]; rfl
    rw [if_pos error, silent]
    exact (List.append_nil _).symm
  · rw [if_neg error]
    cases n.statement with
    | none => exact (List.append_nil _).symm
    | some s =>
      rw [Outline.foundAt_add]
      by_cases here : s.start.row = row <;> simp [here]

theorem foundAt_outline (t : Tree) (row : Nat) :
    (outline t).foundAt row = (t.statements.filter (·.start.row = row)).map Statement.found := by
  have walked (nodes : List Node) (o : Outline) :
      (nodes.foldl (fun o n => n.visit.record o) o).foundAt row = o.foundAt row ++
        ((nodes.filterMap Node.statement).filter (·.start.row = row)).map Statement.found := by
    induction nodes generalizing o with
    | nil => exact (List.append_nil _).symm
    | cons n rest ih =>
      have cut : (n :: rest).filterMap Node.statement =
          n.statement.toList ++ rest.filterMap Node.statement := by
        cases own : n.statement <;> simp [own]
      rw [List.foldl_cons, ih, n.foundAt_record, cut, List.filter_append, List.map_append,
        List.append_assoc]
  rw [outline_eq, walked]
  rfl

theorem found_statements (nodes : List Node) (row : Nat) :
    ((nodes.filterMap Node.statement).filter (·.start.row = row)).map Statement.found =
      (nodes.filter (·.tree.start.row = row)).filterMap Node.found? := by
  induction nodes with
  | nil => rfl
  | cons n rest ih =>
    by_cases here : n.tree.start.row = row <;> cases own : n.found? <;>
      simp [Node.statement, own, here, ih]

theorem get?_outline (t : Tree) (row : Nat) :
    (outline t).rows.get? row =
      let found := ((t.nodes []).filter (·.tree.start.row = row)).filterMap Node.found?
      if found = [] then none else some found := by
  rw [← found_statements, ← Tree.statements, ← foundAt_outline, Outline.foundAt]
  cases kept : (outline t).rows.get? row with
  | none => rfl
  | some found => exact (if_neg (rows_outline t row found kept)).symm

-- The rows of a node from its start to its end, but for a row that it ends at the outset of.
def Tree.Covers (t : Tree) (row : Nat) : Prop :=
  t.start.row ≤ row ∧ row ≤ t.stop.row ∧
    ¬ (t.stop.column = 0 ∧ t.start.row < t.stop.row ∧ row = t.stop.row)

theorem holds_rowSpan (t : Tree) (row : Nat) : t.rowSpan.holds row = true ↔ t.Covers row := by
  simp only [RowSpan.holds, Tree.rowSpan, Tree.Covers, Bool.and_eq_true, decide_eq_true_eq]
  split <;> omega

theorem Node.isError_record (n : Node) (o : Outline) (row : Nat) :
    (n.visit.record o).isError row = true ↔
      o.isError row = true ∨ (n.tree.isError = true ∧ n.tree.Covers row) := by
  rw [record_visit]
  by_cases error : n.tree.isError = true
  · simp [error, Outline.isError, Outline.addError, holds_rowSpan]
  · rw [if_neg error]
    cases n.statement <;> simp [error, Outline.isError, Outline.add]

theorem isError_outline (t : Tree) (row : Nat) :
    (outline t).isError row = true ↔
      ∃ n ∈ t.nodes [], n.tree.isError = true ∧ n.tree.Covers row := by
  have walked (nodes : List Node) (o : Outline) :
      (nodes.foldl (fun o n => n.visit.record o) o).isError row = true ↔
        o.isError row = true ∨ ∃ n ∈ nodes, n.tree.isError = true ∧ n.tree.Covers row := by
    induction nodes generalizing o with
    | nil => simp
    | cons n rest ih => simp [ih, n.isError_record, or_assoc]
  rw [outline_eq, walked]
  simp [Outline.isError, Outline.empty]

end Report

section Rounds

mutual

theorem Tree.length_nodes (around : List Tree) : ∀ t : Tree, (t.nodes around).length = t.size
  | .node _ _ _ children => congrArg (· + 1) (Tree.length_nodesOf _ children)

theorem Tree.length_nodesOf (around : List Tree) :
    ∀ trees : List Tree, (Tree.nodesOf around trees).length = Tree.sizes trees
  | [] => rfl
  | t :: rest => by
    rw [Tree.nodesOf, List.length_append, t.length_nodes, Tree.length_nodesOf around rest,
      Tree.sizes]

end

def visitOnce : Outline × List Visit → Outline × List Visit
  | (o, []) => (o, [])
  | (o, v :: rest) => (v.record o, v.inner ++ rest)

theorem visitAll_visitOnce (state : Outline × List Visit) :
    visitAll (visitOnce state).1 (visitOnce state).2 = visitAll state.1 state.2 := by
  obtain ⟨o, _ | ⟨v, rest⟩⟩ := state
  · rfl
  · exact (visitAll.eq_2 o v rest).symm

-- Every round takes one node off those that are still to be visited.
theorem sizes_visitOnce (state : Outline × List Visit) :
    Visit.sizes (visitOnce state).2 = Visit.sizes state.2 - 1 := by
  obtain ⟨o, _ | ⟨v, rest⟩⟩ := state
  · rfl
  · have own := v.sizes_inner
    simp only [visitOnce, Visit.sizes_append, Visit.sizes]
    omega

theorem sizes_eq_zero_iff (visits : List Visit) : Visit.sizes visits = 0 ↔ visits = [] := by
  cases visits with
  | nil => simp [Visit.sizes]
  | cons v rest =>
    have own := v.sizes_inner
    simp only [Visit.sizes, reduceCtorEq, iff_false]
    omega

theorem visitOnce_iterate (rounds : Nat) (state : Outline × List Visit) :
    visitAll (visitOnce^[rounds] state).1 (visitOnce^[rounds] state).2 =
        visitAll state.1 state.2 ∧
      Visit.sizes (visitOnce^[rounds] state).2 = Visit.sizes state.2 - rounds := by
  induction rounds generalizing state with
  | zero => exact ⟨rfl, rfl⟩
  | succ rounds ih =>
    obtain ⟨same, fewer⟩ := ih (visitOnce state)
    rw [Function.iterate_succ_apply, same, fewer, visitAll_visitOnce, sizes_visitOnce]
    exact ⟨rfl, by omega⟩

end Rounds

-- The walk ends after one round for each node. Its outline has on a row the statements that start
-- there in document order, if there are any, and the rows of the regions that were not understood.
theorem outline_describes (t : Tree) :
    let start : Outline × List Visit := (.empty, [⟨⟨t, []⟩, 0⟩])
    let nodes := t.nodes []
    (∀ rounds, (visitOnce^[rounds] start).2 = [] ↔ nodes.length ≤ rounds) ∧
    visitOnce^[nodes.length] start = (outline t, []) ∧
    (∀ row, (outline t).rows.get? row =
      let found := (nodes.filter (·.tree.start.row = row)).filterMap Node.found?
      if found = [] then none else some found) ∧
    ∀ row, (outline t).isError row = true ↔
      ∃ n ∈ nodes, n.tree.isError = true ∧ n.tree.Covers row := by
  intro start nodes
  have size : Visit.sizes start.2 = nodes.length := (t.length_nodes []).symm
  have ends (rounds : Nat) : (visitOnce^[rounds] start).2 = [] ↔ nodes.length ≤ rounds := by
    rw [← sizes_eq_zero_iff, (visitOnce_iterate rounds start).2, size]
    omega
  refine ⟨ends, ?_, get?_outline t, isError_outline t⟩
  have last : (visitOnce^[nodes.length] start).2 = [] := (ends _).2 (Nat.le_refl _)
  have same := (visitOnce_iterate nodes.length start).1
  rw [last, visitAll] at same
  exact Prod.ext same last

end LineLedger.Python
