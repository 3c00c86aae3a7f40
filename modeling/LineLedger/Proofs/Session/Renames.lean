import LineLedger.Session
import LineLedger.Proofs.Pending.Remade
import LineLedger.Proofs.Walk.InSight

set_option autoImplicit false

namespace LineLedger

open Pending (nothing overridden renamedLine renameText applied Inline)

structure Renaming where
  whole : Bool
  old : String
  new : String
  filled : old ≠ ""
  inLine : '\n' ∉ old.toList ∧ '\n' ∉ new.toList

namespace Renaming

variable (r : Renaming)

def rule (text : List Char) : Option (List Char) :=
  Text.replace? r.whole r.old.toList r.new.toList text

def replaced (text : List Char) : List Char :=
  Text.replaceAll r.whole r.old.toList r.new.toList text

def Occurs (text : List Char) : Prop :=
  Text.Occurs (Text.Fits r.whole r.old.toList) r.old.toList none text

theorem inhabited : r.old.toList ≠ [] := by
  simpa using r.filled

theorem isSome_rule (text : List Char) : (r.rule text).isSome = true ↔ r.Occurs text :=
  Text.isSome_replace? r.inhabited r.new.toList text

theorem inline : Inline r.rule :=
  Pending.inline_replace? r.inhabited r.inLine.1 r.inLine.2 r.whole

-- What is left of a line of which the two renames are queued: what the second makes of it, if it
-- makes anything.
def latest (first second : Renaming) (line : String) : String :=
  renamedLine (overridden first.rule second.rule) line

end Renaming

def Disk.AllLines (d : Disk) (paths : List Path) (holds : List Char → Prop) : Prop :=
  ∀ path ∈ paths, ∀ text, d.Unlocked path text → ∀ line ∈ Text.lines text, holds line.toList

namespace Session

variable {σ : Type}

section AnyWalk

variable [Disk.Walker]

def renamed (s : Session) (d : Disk) (r : Renaming) : Session :=
  (s.rename d r.whole r.old r.new).2

def renamedAtOnce (policy : Policy σ) (state : σ) (s : Session) (d : Disk)
    (first second : Renaming) : Disk :=
  let (_, _, _, d) := ((s.renamed d first).renamed d second).commit policy state d
  d

def renamedInTurn (policy : Policy σ) (state : σ) (s : Session) (d : Disk)
    (first second : Renaming) : Disk :=
  let (_, state, s, d) := (s.renamed d first).commit policy state d
  let (_, _, _, d) := (s.renamed d second).commit policy state d
  d

theorem renamedInTurn_eq (policy : Policy σ) (state : σ) (s : Session) (d : Disk)
    (first second : Renaming) :
    let middle := (s.renamed d first).commit policy state d
    s.renamedInTurn policy state d first second =
      ((middle.2.2.1.renamed middle.2.2.2 second).commit policy middle.2.1 middle.2.2.2).2.2.2 := by
  intro middle
  rw [renamedInTurn]

section Renamed

variable {s : Session} {d : Disk} {paths : List Path} {policy : Policy σ}

theorem renamed_eq (walk : s.files d = .ok paths) (r : Renaming) :
    s.renamed d r = { s with pending := (Pending.renameWith r.rule d s.pending paths).2 } := by
  have filled : ¬ r.old.isEmpty = true := by simpa using r.filled
  simp only [renamed, rename, walk, Pending.rename, if_neg filled]
  rfl

variable (accepts : policy.Accepts) (state : σ) (walk : s.files d = .ok paths)
  (queues : s.pending.Queues nothing d paths) (first second : Renaming)

include accepts walk queues

theorem remade_at_once : d.Remade paths (renameText (overridden first.rule second.rule))
    (s.renamedAtOnce policy state d first second) := by
  have both := (queues.renameWith first.rule).renameWith second.rule
  rw [Pending.overridden_nothing] at both
  have walk' : (s.renamed d first).files d = .ok paths := by rw [renamed_eq walk]; exact walk
  rw [renamedAtOnce, renamed_eq walk', renamed_eq walk]
  exact (both.resolveAll accepts state).1

theorem files_committed (r : Renaming) {holdsRules : Disk → FullName → Prop}
    (walks : Disk.Walks holdsRules)
    (free : ∀ path ∈ paths, ∀ name, d.Names path name → ¬ holdsRules d name) :
    s.files ((s.renamed d r).commit policy state d).2.2.2 = .ok paths := by
  have one := queues.renameWith r.rule
  rw [renamed_eq walk]
  have remade := (one.resolveAll accepts state).1
  exact (walks.collectFiles_eq remade free _ _).trans walk

theorem remade_in_turn (again : s.files ((s.renamed d first).commit policy state d).2.2.2 =
    .ok paths) :
    d.Remade paths (renameText second.rule ∘ renameText first.rule)
      (s.renamedInTurn policy state d first second) := by
  have one := queues.renameWith first.rule
  rw [Pending.overridden_nothing] at one
  have committed := one.resolveAll accepts state
  rw [renamedInTurn]
  rw [renamed_eq walk] at again ⊢
  simp only [commit] at again ⊢
  generalize Pending.resolveAll policy ⟨_, d, state⟩ = outcome at again committed ⊢
  obtain ⟨report, middle⟩ := outcome
  have ⟨remade, settled⟩ := committed
  have other := settled.renameWith second.rule
  rw [Pending.overridden_nothing] at other
  have walk' : ({ s with pending := middle.pending } : Session).files middle.disk = .ok paths :=
    again
  simp only [renamed_eq walk']
  exact remade.trans (other.resolveAll accepts middle.policy).1

end Renamed

-- Of two renames that are queued, the second has its way on every line that it changes. Renames of
-- which the order makes no difference leave what they leave with a commit between them just if no
-- line needs both. Where they come to files that hold rules, the walk must find the same files
-- again.
theorem renamed_at_once {holdsRules : Disk → FullName → Prop} (walks : Disk.Walks holdsRules)
    {policy : Policy σ} (accepts : policy.Accepts) (state : σ) {s : Session} {d : Disk}
    {paths : List Path} (reachable : s.pending.Reachable) (idle : s.pending.size = 0)
    (walk : s.files d = .ok paths) (first second : Renaming) :
    let once := s.renamedAtOnce policy state d first second
    let turn := s.renamedInTurn policy state d first second
    (∀ path ∈ paths, ∀ text, d.Unlocked path text → once.readText path =
      .ok (String.join ((Text.lines text).map (first.latest second)))) ∧
    (((∃ path ∈ paths, ∃ name, d.Names path name ∧ holdsRules d name) →
        s.files ((s.renamed d first).commit policy state d).2.2.2 = .ok paths) →
      (d.AllLines paths fun line =>
        second.replaced (first.replaced line) = first.replaced (second.replaced line)) →
      ((∀ path, turn.readText path = once.readText path) ↔
        d.AllLines paths fun line => first.Occurs line → second.Occurs line →
          second.replaced (first.replaced line) = second.replaced line)) := by
  intro once turn
  have queues := Pending.queues_nothing reachable.sound idle (walks.distinct_collectFiles walk)
  have atOnce := remade_at_once accepts state walk queues first second
  refine ⟨fun path listed text unlocked => atOnce.readText_eq listed unlocked, ?_⟩
  intro revealed commute
  have again : s.files ((s.renamed d first).commit policy state d).2.2.2 = .ok paths := by
    by_cases ruled : ∃ path ∈ paths, ∃ name, d.Names path name ∧ holdsRules d name
    · exact revealed ruled
    · exact files_committed accepts state walk queues first walks fun path listed name names held =>
        ruled ⟨path, listed, name, names, held⟩
  have inTurn := remade_in_turn accepts state walk queues first second again
  rw [atOnce.readText_eq_iff inTurn]
  refine forall₂_congr fun path listed => forall₂_congr fun text unlocked => ?_
  rw [Function.comp_apply, Pending.renameText_overridden_iff first.inline second.inline text
    (commute path listed text unlocked)]
  simp only [Renaming.isSome_rule]
  rfl

end AnyWalk

section Stock

def stock : Disk :=
  ⟨⟨.ofList [(["a.lua"], .file (.text "a = b\nb\nc") false),
    (["b.lua"], .file (.text "a b\n") true)], by decide +kernel⟩, [], ⟨""⟩⟩

def stocktaking : Session := ⟨⟨"."⟩, .default, .empty, .empty⟩

def stockFiles : List Path := [⟨"./a.lua"⟩, ⟨"./b.lua"⟩]

theorem unlocked_stock {path : Path} (listed : path ∈ stockFiles) {text : String}
    (unlocked : stock.Unlocked path text) : text = "a = b\nb\nc" := by
  have here : stock.readText ⟨"./a.lua"⟩ = .ok "a = b\nb\nc" := by decide +kernel
  have there : stock.find ⟨"./b.lua"⟩ = .ok (["b.lua"], .file (.text "a b\n") true) := by
    decide +kernel
  simp only [stockFiles, List.mem_cons, List.not_mem_nil, or_false] at listed
  rcases listed with rfl | rfl
  · exact (Except.ok.inj (here.symm.trans unlocked.readText)).symm
  · obtain ⟨name, found⟩ := unlocked
    cases there.symm.trans found

theorem walk_stock : stocktaking.files stock = .ok stockFiles :=
  Disk.collectFiles_of_found (by decide +kernel) (by decide +kernel) (by decide +kernel)

theorem queues_stock : stocktaking.pending.Queues nothing stock stockFiles :=
  Pending.queues_nothing Pending.sound_empty rfl
    (Disk.walks_inSight.distinct_collectFiles walk_stock)

def ofLetters (old new : Char) (apart : old ≠ '\n' ∧ new ≠ '\n') : Renaming where
  whole := false
  old := String.ofList [old]
  new := String.ofList [new]
  filled := by simp
  inLine := by simpa [eq_comm] using apart

def letterA : Renaming := ofLetters 'a' 'x' (by decide)

end Stock

theorem renamed_at_once_stock :
    let first := letterA
    let second := ofLetters 'c' 'y' (by decide)
    let once := stocktaking.renamedAtOnce (.acceptAll : Policy Unit) () stock first second
    let turn := stocktaking.renamedInTurn (.acceptAll : Policy Unit) () stock first second
    (Policy.acceptAll : Policy Unit).Accepts ∧ stocktaking.pending.Reachable ∧
    stocktaking.pending.size = 0 ∧ Disk.Walks Disk.HoldsRules ∧
    stocktaking.files stock = .ok stockFiles ∧
    once.readText ⟨"./a.lua"⟩ = .ok "x = b\nb\ny\n" ∧
    ∀ path, turn.readText path = once.readText path := by
  intro first second once turn
  have accepts : (Policy.acceptAll : Policy Unit).Accepts := Policy.accepts_acceptAll
  have reachable : stocktaking.pending.Reachable := ⟨[], rfl⟩
  have ⟨latest, same⟩ :=
    renamed_at_once Disk.walks_inSight accepts () reachable rfl walk_stock first second
  have commute : stock.AllLines stockFiles fun line =>
      second.replaced (first.replaced line) = first.replaced (second.replaced line) := by
    intro path listed text unlocked
    rw [unlocked_stock listed unlocked]
    decide +kernel
  have apart : ∀ line ∈ Text.lines "a = b\nb\nc", (first.rule line.toList).isSome = true →
      (second.rule line.toList).isSome = true →
      second.replaced (first.replaced line.toList) = second.replaced line.toList := by
    decide +kernel
  have text := latest ⟨"./a.lua"⟩ (by simp [stockFiles]) "a = b\nb\nc"
    ⟨["a.lua"], by decide +kernel⟩
  have made : String.join ((Text.lines "a = b\nb\nc").map (first.latest second)) =
      "x = b\nb\ny\n" := by decide +kernel
  have free := Disk.free_of_filtered (by decide) walk_stock
  refine ⟨accepts, reachable, rfl, Disk.walks_inSight, walk_stock, made ▸ text, ?_⟩
  refine (same (fun ⟨path, listed, name, names, held⟩ =>
    absurd held (free path listed name names)) commute).2 ?_
  intro path listed text unlocked line member left right
  rw [unlocked_stock listed unlocked] at member
  exact apart line member ((first.isSome_rule _).2 left) ((second.isSome_rule _).2 right)

-- Each rename is for another letter of the first line, and the first of them is lost.
theorem renamed_at_once_lost :
    let first := letterA
    let second := ofLetters 'b' 'y' (by decide)
    let once := stocktaking.renamedAtOnce (.acceptAll : Policy Unit) () stock first second
    let turn := stocktaking.renamedInTurn (.acceptAll : Policy Unit) () stock first second
    stocktaking.pending = .empty ∧
    (∀ line ∈ Text.lines "a = b\nb\nc", second.replaced (first.replaced line.toList) =
      first.replaced (second.replaced line.toList)) ∧
    once.readText ⟨"./a.lua"⟩ = .ok "a = y\ny\nc" ∧
    turn.readText ⟨"./a.lua"⟩ = .ok "x = y\ny\nc" := by
  intro first second once turn
  have accepts : (Policy.acceptAll : Policy Unit).Accepts := Policy.accepts_acceptAll
  have listed : (⟨"./a.lua"⟩ : Path) ∈ stockFiles := by simp [stockFiles]
  have unlocked : stock.Unlocked ⟨"./a.lua"⟩ "a = b\nb\nc" := ⟨["a.lua"], by decide +kernel⟩
  have atOnce := (remade_at_once accepts () walk_stock queues_stock first second).readText_eq
    listed unlocked
  have inTurn := (remade_in_turn accepts () walk_stock queues_stock first second
    (files_committed accepts () walk_stock queues_stock first Disk.walks_inSight
      (Disk.free_of_filtered (by decide) walk_stock))).readText_eq
      listed unlocked
  have made : renameText (overridden first.rule second.rule) "a = b\nb\nc" = "a = y\ny\nc" := by
    decide +kernel
  have made' : renameText second.rule (renameText first.rule "a = b\nb\nc") = "x = y\ny\nc" := by
    decide +kernel
  exact ⟨rfl, by decide +kernel, made ▸ atOnce, made' ▸ inTurn⟩

section Unfiltered

def concealing : Disk :=
  ⟨⟨.ofList [([".gitignore"], .file (.text "!.gitignore\nb.lua\n") false),
    (["b.lua"], .file (.text "q\n") false)], by decide +kernel⟩, [], ⟨""⟩⟩

def unfiltered : Session := ⟨⟨"."⟩, { Settings.default with extensions := [] }, .empty, .empty⟩

theorem walk_concealing : unfiltered.files concealing = .ok [⟨"./.gitignore"⟩] :=
  Disk.collectFiles_of_found (by decide +kernel) (by decide +kernel) (by decide +kernel)

-- The first rename is for the ignore file, and the second finds more after it is committed.
theorem renamed_at_once_revealed :
    let first := ofLetters 'b' 'c' (by decide)
    let second := ofLetters 'q' 'r' (by decide)
    let once := unfiltered.renamedAtOnce (.acceptAll : Policy Unit) () concealing first second
    let turn := unfiltered.renamedInTurn (.acceptAll : Policy Unit) () concealing first second
    unfiltered.pending = .empty ∧
    (∀ line ∈ Text.lines "!.gitignore\nb.lua\n", ¬ (first.rule line.toList).isSome ∨
      ¬ (second.rule line.toList).isSome) ∧
    once.readText ⟨"./b.lua"⟩ = .ok "q\n" ∧ turn.readText ⟨"./b.lua"⟩ = .ok "r\n" := by
  intro first second once turn
  let middle := (unfiltered.renamed concealing first).commit (.acceptAll : Policy Unit) ()
    concealing
  have walk : middle.2.2.1.files middle.2.2.2 = .ok [⟨"./.gitignore"⟩, ⟨"./b.lua"⟩] := by
    simp only [middle, renamed_eq walk_concealing]
    exact Disk.collectFiles_of_found (by decide +kernel) (by decide +kernel) (by decide +kernel)
  refine ⟨rfl, by decide +kernel, ?_, ?_⟩
  · simp only [once, renamedAtOnce, renamed_eq walk_concealing]
    decide +kernel
  · rw [show turn = _ from renamedInTurn_eq .., renamed_eq walk]
    simp only [middle, renamed_eq walk_concealing]
    decide +kernel

end Unfiltered

end Session

end LineLedger
