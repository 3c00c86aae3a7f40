import LineLedger.Proofs.Pending.Accepted
import LineLedger.Proofs.Pending.Rename
import LineLedger.Proofs.Text.WholeWord
import Mathlib.Data.List.Infix

set_option autoImplicit false

namespace LineLedger

namespace Text

variable {whole : Bool} {old new : List Char}

def lastLine (text : List Char) : List Char := (splitLines text).getLast?.getD []

-- What `make` makes of a text, and a line feed if the last line has a hit and is left without one.
def closed (hit : List Char → Bool) (make : List Char → List Char) (text : List Char) :
    List Char :=
  if endsLine text = false ∧ hit (lastLine text) = true ∧ endsLine (make (lastLine text)) = false
  then make text ++ ['\n']
  else make text

def hits (whole : Bool) (old new line : List Char) : Bool := (replace? whole old new line).isSome

theorem toList_renamedLine (line : String) :
    (Pending.renamedLine (replace? whole old new) line).toList =
      if hits whole old new line.toList then terminate (replaceAll whole old new line.toList)
      else replaceAll whole old new line.toList := by
  rw [Pending.renamedLine, hits, replaceAll]
  cases replace? whole old new line.toList with
  | none => rfl
  | some made => simp [terminated]

theorem endsLine_of_concat {text last : List Char} {before : List (List Char)}
    (split : splitLines text = before ++ [last]) : endsLine text = endsLine last := by
  have inhabited : last ≠ [] := (isLine_of_mem (split ▸ List.mem_concat_self)).inhabited
  have joined : text = before.flatten ++ last := by
    rw [← flatten_splitLines text, split, List.flatten_concat]
  obtain ⟨c, found⟩ := Option.isSome_iff_exists.1 (List.getLast?_isSome.2 inhabited)
  rw [joined, endsLine, endsLine, List.getLast?_append, found, Option.some_or]

theorem toList_join_renamedLine (filled : old ≠ []) (single : '\n' ∉ old) (text : String) :
    (String.join ((lines text).map (Pending.renamedLine (replace? whole old new)))).toList =
      closed (hits whole old new) (replaceAll whole old new) text.toList := by
  have kept : ∀ line : List Char, endsLine line = true →
      endsLine (replaceAll whole old new line) = true := fun line ended =>
    endsLine_replaceAll filled single new ended
  have all : replaceAll whole old new text.toList =
      (splitLines text.toList).flatMap (replaceAll whole old new) :=
    replaceAll_lines filled single new text.toList
  rw [String.toList_join, lines, List.map_map, List.flatMap_map]
  simp only [Function.comp_apply, toList_renamedLine, String.toList_ofList]
  rcases List.eq_nil_or_concat (splitLines text.toList) with none | ⟨before, last, split⟩
  · have empty := (splitLines_eq_nil_iff _).1 none
    simp [closed, hits, lastLine, empty, splitLines, replaceAll, replace?, replaceFrom]
  · rw [List.concat_eq_append] at split
    -- A line that has a line feed keeps it, so only the last one can be ended by its change.
    have front : ∀ line ∈ before, (if hits whole old new line then
        terminate (replaceAll whole old new line) else replaceAll whole old new line) =
          replaceAll whole old new line := by
      intro line member
      have among : line ∈ (splitLines text.toList).dropLast := by rwa [split, List.dropLast_concat]
      rw [terminate, if_pos (kept line (endsLine_of_mem_dropLast among)), ite_self]
    rw [split, List.flatMap_append, List.flatMap_singleton] at all
    rw [split, List.flatMap_append, List.flatMap_singleton, List.flatMap_def,
      List.map_congr_left front, ← List.flatMap_def, closed, all, endsLine_of_concat split,
      lastLine, split, List.getLast?_concat, Option.getD_some, terminate]
    have ended := kept last
    cases hits whole old new last <;> cases before : endsLine last <;>
      cases after : endsLine (replaceAll whole old new last) <;> simp_all

end Text

namespace Pending

open Text

variable {old new : String} {p : Pending} {d : Disk} {paths : List Path}

-- What a rename does that changes just the lines with a hit and, over a whole text, comes down to
-- `make`. It is told for files that nothing was pending for; the disk is only read until a commit.
structure Renames (hit : List Char → Bool) (make : List Char → List Char) (d : Disk) (p : Pending)
    (paths : List Path) (report : RenameReport) (next : Pending) : Prop where
  reported : report = reportOf hit d paths
  size : (∀ path ∈ paths, p.get? path = none) → next.size = p.size + report.edits
  changed : ∀ path ∈ paths, p.get? path = none → ∀ text, d.readText path = .ok text →
    (∃ line ∈ Text.lines text, hit line.toList = true) →
      CommitsTo next d path (String.ofList (closed hit make text.toList))
  kept : ∀ path ∈ paths, p.get? path = none → ∀ text, d.readText path = .ok text →
    (∀ line ∈ Text.lines text, hit line.toList = false) → Untouched next d path

theorem rename_eq (filled : old ≠ "") (whole : Bool) (new : String) (d : Disk) (p : Pending)
    (paths : List Path) : rename whole old new d p paths =
      renameWith (replace? whole old.toList new.toList) d p paths := by
  rw [rename, if_neg (by simpa using filled)]

theorem linesIn_eq {path : Path} {text : String} (read : d.readText path = .ok text) :
    linesIn d path = Text.lines text := by
  rw [linesIn, read]

theorem Sound.renames (sound : p.Sound) (filled : old ≠ "") (single : '\n' ∉ old.toList)
    (whole : Bool) (new : String)
    (distinct : paths.Pairwise fun a b => ¬ a.Same b) :
    Renames (hits whole old.toList new.toList) (replaceAll whole old.toList new.toList) d p paths
      (rename whole old new d p paths).1 (rename whole old new d p paths).2 := by
  have inhabited : old.toList ≠ [] := by simpa using filled
  have next := sound.renameWith (replace? whole old.toList new.toList) d paths
  rw [rename_eq filled]
  constructor
  · exact renameWith_fst d p paths
  · intro idle
    rw [renameWith_fst, renameWith_snd]
    refine size_renameFiles sound d distinct fun path member line => ?_
    rw [changeAt, idle path member, Option.bind_none]
  · intro path listed idle text read hit
    have some := exists_get?_renameWith (replace? whole old.toList new.toList) d sound distinct
      listed idle
    rw [linesIn_eq read] at some
    obtain ⟨set, found⟩ := some.2 hit
    have applied := apply_renameWith sound distinct listed idle found
    rw [linesIn_eq read] at applied
    have written : String.join (set.apply (Text.lines text)) = String.ofList
        (closed (hits whole old.toList new.toList) (replaceAll whole old.toList new.toList)
          text.toList) := by
      rw [applied, ← toList_join_renamedLine inhabited single, String.ofList_toList]
    exact written ▸ next.commitsTo found
      (listed_of_get?_renameWith sound distinct listed idle found) read
  · intro path listed idle text read free
    have some := exists_get?_renameWith (replace? whole old.toList new.toList) d sound distinct
      listed idle
    rw [linesIn_eq read] at some
    refine next.untouched d (Option.eq_none_iff_forall_ne_some.2 fun set found => ?_)
    obtain ⟨line, member, hit⟩ := some.1 ⟨set, found⟩
    exact Bool.false_ne_true ((free line member).symm.trans hit)

def samples : Disk :=
  ⟨⟨.ofList [(["a.lua"], .file (.text "$x = a$x\n") false), (["a.txt"], .file (.text "x\na") false),
    (["a.py"], .file (.text "count counter $count\ncount") false)], by decide +kernel⟩, [], ⟨""⟩⟩

theorem reachable_empty : empty.Reachable := ⟨[], rfl⟩

theorem rename_everywhere (filled : old ≠ "") (single : '\n' ∉ old.toList) (new : String)
    (reachable : p.Reachable)
    (distinct : paths.Pairwise fun a b => ¬ a.Same b) :
    let (report, next) := rename false old new d p paths
    let replaced := replaceAll false old.toList new.toList
    (∀ text, Replaced (fun _ _ => True) old.toList new.toList none text (replaced text)) ∧
    Renames (fun line => decide (old.toList <:+: line)) replaced d p paths report next ∧
    ((Call.rename false old new paths).events d p).length = report.edits := by
  have inhabited : old.toList ≠ [] := by simpa using filled
  have hit : hits false old.toList new.toList = fun line => decide (old.toList <:+: line) := by
    funext line
    rw [Bool.eq_iff_iff, hits, isSome_replace? inhabited, occurs_everywhere, decide_eq_true_eq]
  have recorded : ((Call.rename false old new paths).events d p).length =
      (rename false old new d p paths).1.edits := by
    rw [rename_eq filled, renameWith_fst, Call.events, if_neg (by simpa using filled),
      length_renamedIn]
  refine ⟨fun text => ?_, hit ▸ reachable.sound.renames filled single false new distinct,
    recorded⟩
  refine (replaced_replaceAll inhabited new.toList text).congr fun before after => ?_
  exact iff_true_intro fun whole => absurd whole Bool.false_ne_true

theorem rename_everywhere_samples :
    "a" ≠ "" ∧ '\n' ∉ "a".toList ∧ empty.Reachable ∧
    [Path.mk "a.txt", ⟨"b.txt"⟩].Pairwise (fun a b => ¬ a.Same b) ∧
    let (report, next) := rename false "a" "ba" samples .empty [⟨"a.txt"⟩, ⟨"b.txt"⟩]
    report = ⟨1, [⟨"a.txt"⟩], [(⟨"b.txt"⟩, .unreadable ⟨"b.txt"⟩ .missing)]⟩ ∧
    CommitsTo next samples ⟨"a.txt"⟩ "x\nba\n" := by
  have filled : "a" ≠ "" := by decide
  have single : '\n' ∉ "a".toList := by decide
  have distinct : [Path.mk "a.txt", ⟨"b.txt"⟩].Pairwise fun a b => ¬ a.Same b := by decide
  have ⟨_, renames, _⟩ :=
    rename_everywhere (d := samples) filled single "ba" reachable_empty distinct
  have commits := renames.changed ⟨"a.txt"⟩ (by simp) rfl "x\na" rfl (by decide +kernel)
  have text : String.ofList (closed (fun line => decide ("a".toList <:+: line))
      (replaceAll false "a".toList "ba".toList) "x\na".toList) = "x\nba\n" := by decide +kernel
  exact ⟨filled, single, reachable_empty, distinct,
    renames.reported.trans (by decide +kernel), text ▸ commits⟩

-- Where the new text is empty, the last line can end with the line feed of the one before it.
theorem rename_everywhere_emptied :
    let next := (rename false "a" "" samples .empty [⟨"a.txt"⟩]).2
    Replaced (fun _ _ => True) ['a'] [] none ['x', '\n', 'a'] ['x', '\n'] ∧
    endsLine ['x', '\n'] = true ∧ (resolve .acceptAll ⟨next, samples, ()⟩ ⟨"a.txt"⟩).1 = .ok true ∧
    (resolve .acceptAll ⟨next, samples, ()⟩ ⟨"a.txt"⟩).2.disk.readText ⟨"a.txt"⟩ =
      .ok "x\n\n" := by
  refine ⟨?_, rfl, by decide +kernel, by decide +kernel⟩
  exact .keep (by simp) (.keep (by simp) (.put trivial (.done _)))

theorem rename_words (filled : old ≠ "") (word : ∀ c ∈ old.toList, isWordChar c = true)
    (new : String) (reachable : p.Reachable)
    (distinct : paths.Pairwise fun a b => ¬ a.Same b) :
    let (report, next) := rename true old new d p paths
    Renames (fun line => decide (old.toList ∈ runs line)) (replaceRuns old.toList new.toList) d p
      paths report next := by
  have inhabited : old.toList ≠ [] := by simpa using filled
  have single : '\n' ∉ old.toList := fun feed => absurd (word '\n' feed) (by decide)
  have hit : hits true old.toList new.toList = fun line => decide (old.toList ∈ runs line) := by
    funext line
    rw [Bool.eq_iff_iff, hits, isSome_replace?_runs inhabited word, decide_eq_true_eq]
  have made : replaceAll true old.toList new.toList = replaceRuns old.toList new.toList :=
    funext (replaceAll_runs inhabited word new.toList)
  exact hit ▸ made ▸ reachable.sound.renames filled single true new distinct

theorem rename_words_samples :
    "count" ≠ "" ∧ (∀ c ∈ "count".toList, isWordChar c = true) ∧ empty.Reachable ∧
    [Path.mk "a.py"].Pairwise (fun a b => ¬ a.Same b) ∧
    let (report, next) := rename true "count" "$0count" samples .empty [⟨"a.py"⟩]
    report = ⟨2, [⟨"a.py"⟩], []⟩ ∧
    CommitsTo next samples ⟨"a.py"⟩ "$0count counter $$0count\n$0count\n" := by
  have filled : "count" ≠ "" := by decide
  have word : ∀ c ∈ "count".toList, isWordChar c = true := List.all_eq_true.1 (by decide)
  have distinct : [Path.mk "a.py"].Pairwise fun a b => ¬ a.Same b := by decide
  have renames := rename_words (d := samples) filled word "$0count" reachable_empty distinct
  have commits := renames.changed ⟨"a.py"⟩ (by simp) rfl "count counter $count\ncount" rfl
    (by decide +kernel)
  have text : String.ofList (closed (fun line => decide ("count".toList ∈ runs line))
      (replaceRuns "count".toList "$0count".toList) "count counter $count\ncount".toList) =
        "$0count counter $$0count\n$0count\n" := by decide +kernel
  exact ⟨filled, word, reachable_empty, distinct,
    renames.reported.trans (by decide +kernel), text ▸ commits⟩

-- A rename of whole words replaces what stands between boundaries, whatever its characters. These
-- are the occurrences with no word character next to them just if the old text begins and ends with
-- word characters.
theorem rename_at_boundaries (filled : old ≠ "") (reachable : p.Reachable)
    (distinct : paths.Pairwise fun a b => ¬ a.Same b) :
    (∀ new, ∀ path ∈ paths, p.get? path = none → ∀ text, d.readText path = .ok text →
      ∀ place line, (Text.lines text)[place]? = some line →
        let change := (rename true old new d p paths).2.changeAt path place
        let made := replaceAll true old.toList new.toList line.toList
        let occurs := Occurs (Fits true old.toList) old.toList none line.toList
        Replaced (Fits true old.toList) old.toList new.toList none line.toList made ∧
        (occurs → change = some (.replacing place (some line) (String.ofList made))) ∧
        (¬ occurs → change = none)) ∧
    ((∀ new line, Replaced Bounded old.toList new none line
        (replaceAll true old.toList new line)) ↔
      WordEnds old.toList) := by
  have inhabited : old.toList ≠ [] := by simpa using filled
  refine ⟨fun new path listed idle text read place line present => ?_,
    replaced_bounded_iff inhabited⟩
  refine ⟨replaced_replaceAll inhabited new.toList line.toList, ?_⟩
  rw [rename_eq filled, changeAt_renameWith reachable.sound distinct listed idle, linesIn_eq read,
    present, Option.bind_some, edit?, replaceAll, ← isSome_replace? inhabited new.toList]
  cases replace? true old.toList new.toList line.toList with
  | none => exact ⟨fun some => absurd some Bool.false_ne_true, fun _ => rfl⟩
  | some out => exact ⟨fun _ => rfl, fun none => absurd rfl none⟩

theorem rename_at_boundaries_samples :
    "$x" ≠ "" ∧ empty.Reachable ∧ [Path.mk "a.lua"].Pairwise (fun a b => ¬ a.Same b) ∧
    (rename true "$x" "y" samples .empty [⟨"a.lua"⟩]).2.changeAt ⟨"a.lua"⟩ 0 =
      some (.replacing 0 (some "$x = a$x\n") "$x = ay\n") ∧
    ¬ ∀ new line, Replaced Bounded "$x".toList new none line
      (replaceAll true "$x".toList new line) := by
  have filled : "$x" ≠ "" := by decide
  have distinct : [Path.mk "a.lua"].Pairwise fun a b => ¬ a.Same b := by decide
  have ⟨renamed, bounded⟩ := rename_at_boundaries (d := samples) filled reachable_empty distinct
  have occurs : Occurs (Fits true "$x".toList) "$x".toList none "$x = a$x\n".toList :=
    ⟨"$x = a".toList, ['\n'], by decide, fun _ => by decide⟩
  have made : String.ofList (replaceAll true "$x".toList "y".toList "$x = a$x\n".toList) =
      "$x = ay\n" := by decide +kernel
  have change :=
    (renamed "y" ⟨"a.lua"⟩ (by simp) rfl "$x = a$x\n" rfl 0 "$x = a$x\n" rfl).2.1 occurs
  rw [made] at change
  exact ⟨filled, reachable_empty, distinct, change, mt bounded.1 (by decide)⟩

theorem rename_at_boundaries_sigil :
    let next := (rename true "$x" "y" samples .empty [⟨"a.lua"⟩]).2
    Replaced Bounded ['$', 'x'] ['y'] none ['$', 'x', ' ', '=', ' ', 'a', '$', 'x', '\n']
      ['y', ' ', '=', ' ', 'a', '$', 'x', '\n'] ∧
    (resolve .acceptAll ⟨next, samples, ()⟩ ⟨"a.lua"⟩).1 = .ok true ∧
    (resolve .acceptAll ⟨next, samples, ()⟩ ⟨"a.lua"⟩).2.disk.readText ⟨"a.lua"⟩ =
      .ok "$x = ay\n" := by
  refine ⟨?_, by decide +kernel, by decide +kernel⟩
  refine .put (by decide) (.keep (by simp) (.keep (by simp) (.keep (by simp) (.keep (by simp) ?_))))
  -- A word character stands before the second one, which is kept.
  exact .keep (fun _ _ bounded => absurd bounded.1 (by decide))
    (.keep (by simp) (.keep (by simp) (.done _)))

end Pending

end LineLedger
