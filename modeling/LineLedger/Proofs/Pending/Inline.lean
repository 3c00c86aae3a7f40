import LineLedger.Proofs.Pending.Rename
import LineLedger.Proofs.Text.Replace

set_option autoImplicit false

namespace LineLedger.Pending

open Text

structure Inline (rule : List Char → Option (List Char)) : Prop where
  feed : ∀ text, rule (text ++ ['\n']) = (rule text).map (· ++ ['\n'])
  single : ∀ {text made}, rule text = some made → '\n' ∉ text → '\n' ∉ made

theorem inline_replace? {old new : List Char} (filled : old ≠ []) (single : '\n' ∉ old)
    (single' : '\n' ∉ new) (whole : Bool) : Inline (replace? whole old new) where
  feed text := replaceFrom_append_feed filled single new none text
  single {text made} found free feed := by
    have replaced : Replaced (Fits whole old) old new none text (replaceAll whole old new text) :=
      replaced_replaceAll filled new text
    rw [replaceAll, found, Option.getD_some] at replaced
    exact (replaced.mem_or_mem feed).elim free single'

def overridden (first second : List Char → Option (List Char)) (text : List Char) :
    Option (List Char) :=
  (second text).or (first text)

theorem Inline.overridden {first second : List Char → Option (List Char)} (inline : Inline first)
    (inline' : Inline second) : Inline (overridden first second) where
  feed text := by
    rw [Pending.overridden, Pending.overridden, inline.feed, inline'.feed]
    cases second text <;> rfl
  single {text made} found free := by
    rcases Option.or_eq_some_iff.1 found with found | ⟨_, found⟩
    · exact inline'.single found free
    · exact inline.single found free

def applied (rule : List Char → Option (List Char)) (text : List Char) : List Char :=
  (rule text).getD text

def renameText (rule : List Char → Option (List Char)) (text : String) : String :=
  String.join ((lines text).map (renamedLine rule))

section Lines

variable {rule : List Char → Option (List Char)} {body tail : List Char}

theorem Inline.append (inline : Inline rule) (ends : tail = [] ∨ tail = ['\n']) :
    rule (body ++ tail) = (rule body).map (· ++ tail) := by
  rcases ends with rfl | rfl
  · simp
  · exact inline.feed body

theorem Inline.applied_append (inline : Inline rule) (ends : tail = [] ∨ tail = ['\n']) :
    applied rule (body ++ tail) = applied rule body ++ tail := by
  rw [applied, applied, inline.append ends]
  cases rule body <;> rfl

theorem terminated_append (free : '\n' ∉ body) (ends : tail = [] ∨ tail = ['\n']) :
    terminated (String.ofList (body ++ tail)) = String.ofList (body ++ ['\n']) := by
  rw [terminated, String.toList_ofList, terminate]
  rcases ends with rfl | rfl
  · rw [List.append_nil, if_neg]
    intro ended
    exact free (List.mem_of_getLast? (of_decide_eq_true ended))
  · rw [if_pos (by simp [endsLine])]

theorem Inline.renamedLine_append (inline : Inline rule) (free : '\n' ∉ body)
    (ends : tail = [] ∨ tail = ['\n']) :
    renamedLine rule (String.ofList (body ++ tail)) =
      match rule body with
      | none => String.ofList (body ++ tail)
      | some made => String.ofList (made ++ ['\n']) := by
  rw [renamedLine, String.toList_ofList, inline.append ends]
  cases found : rule body with
  | none => rfl
  | some made => exact terminated_append (inline.single found free) ends

theorem Inline.renamedLine_feed (inline : Inline rule) (body : List Char) :
    renamedLine rule (String.ofList (body ++ ['\n'])) =
      String.ofList (applied rule body ++ ['\n']) := by
  rw [renamedLine, String.toList_ofList, inline.feed, applied]
  cases rule body with
  | none => rfl
  | some made => simp [terminated, terminate, endsLine]

theorem exists_body {text line : String} (member : line ∈ lines text) :
    ∃ body tail, line = String.ofList (body ++ tail) ∧ '\n' ∉ body ∧
      (tail = [] ∨ tail = ['\n']) := by
  obtain ⟨found, listed, rfl⟩ := List.mem_map.1 member
  have isLine := isLine_of_mem listed
  cases ended : endsLine found with
  | false => exact ⟨found, [], by rw [List.append_nil], isLine.ended ended, .inl rfl⟩
  | true =>
      obtain ⟨body, rfl⟩ := List.getLast?_eq_some_iff.1 (of_decide_eq_true ended)
      exact ⟨body, _, rfl, isLine.free, .inr rfl⟩

theorem Inline.lines_renamedLine (inline : Inline rule) {text line : String}
    (member : line ∈ lines text) : lines (renamedLine rule line) = [renamedLine rule line] := by
  obtain ⟨body, tail, rfl, free, ends⟩ := exists_body member
  rw [inline.renamedLine_append free ends]
  cases found : rule body with
  | none => exact lines_of_mem_lines member
  | some made =>
      have free := inline.single found free
      exact lines_of_endsLine (by simp [endsLine]) (by simpa using free)

theorem endsLine_renamedLine {line : String} (ended : endsLine line.toList = true) :
    endsLine (renamedLine rule line).toList = true := by
  rw [renamedLine]
  cases rule line.toList with
  | none => exact ended
  | some made => exact endsLine_terminated _

theorem Inline.lines_renameText (inline : Inline rule) (text : String) :
    lines (renameText rule text) = (lines text).map (renamedLine rule) := by
  have ended : ∀ part ∈ ((lines text).map (renamedLine rule)).dropLast,
      endsLine part.toList = true := by
    rw [lines, ← List.map_dropLast, ← List.map_dropLast]
    intro part member
    obtain ⟨line, listed, rfl⟩ := List.mem_map.1 member
    obtain ⟨found, among, rfl⟩ := List.mem_map.1 listed
    exact endsLine_renamedLine (by rw [String.toList_ofList]; exact endsLine_of_mem_dropLast among)
  rw [renameText, lines_join ended, List.flatMap_map, List.map_eq_flatMap, List.flatMap_def,
    List.flatMap_def, List.map_congr_left fun line member => inline.lines_renamedLine member]

end Lines

section Twice

variable {first second : List Char → Option (List Char)} (inline : Inline first)
  (inline' : Inline second)

include inline inline'

theorem renamedLine_overridden_iff {text line : String} (member : line ∈ lines text)
    (commute : applied second (applied first line.toList) =
      applied first (applied second line.toList)) :
    renamedLine second (renamedLine first line) = renamedLine (overridden first second) line ↔
      ((first line.toList).isSome = true → (second line.toList).isSome = true →
        applied second (applied first line.toList) = applied second line.toList) := by
  obtain ⟨body, tail, rfl, free, ends⟩ := exists_body member
  simp only [String.toList_ofList, inline.applied_append ends, inline'.applied_append ends,
    List.append_cancel_right_eq] at commute ⊢
  simp only [inline.append ends, inline'.append ends, Option.isSome_map]
  rw [inline.renamedLine_append free ends, (inline.overridden inline').renamedLine_append free ends,
    overridden]
  cases changed : first body with
  | none =>
      refine iff_of_true ?_ (fun some => nomatch some)
      rw [Option.or_none]
      exact inline'.renamedLine_append free ends
  | some made =>
      have left : applied first body = made := by rw [applied, changed]; rfl
      simp only [inline'.renamedLine_feed, left] at commute ⊢
      cases changed' : second body with
      | none =>
          -- The second rule changes nothing of the line, so nothing of what the first made of it.
          have same : applied second body = body := by rw [applied, changed']; rfl
          rw [commute, same, left]
          simp
      | some made' => simp [applied, changed', String.ofList_inj]

theorem renameText_overridden_iff (text : String) (commute : ∀ line ∈ lines text,
      applied second (applied first line.toList) = applied first (applied second line.toList)) :
    renameText second (renameText first text) = renameText (overridden first second) text ↔
      ∀ line ∈ lines text, (first line.toList).isSome = true → (second line.toList).isSome = true →
        applied second (applied first line.toList) = applied second line.toList := by
  have each :
      renameText second (renameText first text) = renameText (overridden first second) text ↔
      ∀ line ∈ lines text, renamedLine second (renamedLine first line) =
        renamedLine (overridden first second) line := by
    refine ⟨fun same => ?_, fun same => ?_⟩
    · have split := congrArg lines same
      rw [inline'.lines_renameText, inline.lines_renameText,
        (inline.overridden inline').lines_renameText, List.map_map] at split
      exact List.map_inj_left.1 split
    · rw [renameText, inline.lines_renameText, renameText, List.map_map]
      exact congrArg String.join (List.map_congr_left same)
  rw [each]
  refine forall₂_congr fun line member => ?_
  exact renamedLine_overridden_iff inline inline' member (commute line member)

end Twice

end LineLedger.Pending
