import LineLedger.Proofs.Text.Lines
import LineLedger.Proofs.Text.Trim

set_option autoImplicit false

namespace LineLedger.Text

-- None is empty, a line feed ends the piece it stands in, and every piece but the last has one.
structure ArePieces (pieces : List String) : Prop where
  inhabited : ∀ piece ∈ pieces, piece ≠ ""
  single : ∀ piece ∈ pieces, '\n' ∉ piece.toList.dropLast
  ended : ∀ piece ∈ pieces.dropLast, piece.toList.getLast? = some '\n'

def Strips (line shown : List Char) : Prop :=
  ∃ breaks, line = shown ++ breaks ∧ (∀ c ∈ breaks, c = '\r' ∨ c = '\n') ∧
    ∀ c, shown.getLast? = some c → c ≠ '\r' ∧ c ≠ '\n'

section Pieces

theorem isLine_of_single {line : List Char} (inhabited : line ≠ [])
    (single : '\n' ∉ line.dropLast) : IsLine line := by
  induction line with
  | nil => exact absurd rfl inhabited
  | cons c rest ih =>
      by_cases last : rest = []
      · subst last
        by_cases feed : c = '\n'
        · exact feed ▸ isLine_feed
        · exact isLine_single feed
      · rw [List.dropLast_cons_of_ne_nil last, List.mem_cons, not_or] at single
        exact (ih last single.2).cons (Ne.symm single.1)

theorem IsLine.single_feed {line : List Char} (isLine : IsLine line) : '\n' ∉ line.dropLast := by
  cases ended : endsLine line with
  | true =>
      have last : line.getLast? = some '\n' := by simpa [endsLine] using ended
      obtain ⟨body, rfl⟩ := List.getLast?_eq_some_iff.1 last
      simpa using isLine.free
  | false => exact fun feed => isLine.ended ended (List.dropLast_subset _ feed)

theorem arePieces_lines (text : String) : ArePieces (lines text) where
  inhabited _ member := ne_empty_of_mem_lines member
  single piece member := by
    obtain ⟨line, listed, rfl⟩ := List.mem_map.1 member
    simpa using (isLine_of_mem listed).single_feed
  ended piece member := by
    rw [lines, ← List.map_dropLast] at member
    obtain ⟨line, listed, rfl⟩ := List.mem_map.1 member
    simpa [endsLine] using endsLine_of_mem_dropLast listed

theorem ArePieces.lines_join {pieces : List String} (are : ArePieces pieces) :
    lines (String.join pieces) = pieces := by
  apply lines_join_of_single
  · intro piece member
    simpa [endsLine] using are.ended piece member
  · intro piece member
    have inhabited : piece.toList ≠ [] := by simpa using are.inhabited piece member
    rw [lines, (isLine_of_single inhabited (are.single piece member)).single]
    simp

theorem lines_eq_iff (text : String) (pieces : List String) :
    lines text = pieces ↔ ArePieces pieces ∧ String.join pieces = text := by
  constructor
  · rintro rfl
    exact ⟨arePieces_lines text, join_lines text⟩
  · rintro ⟨are, rfl⟩
    exact are.lines_join

end Pieces

section Numbered

theorem strips_chomp (line : List Char) : Strips line (chomp line) := by
  obtain ⟨breaks, split, all⟩ := exists_dropped isBreak line
  refine ⟨breaks, split, fun c member => (isBreak_iff c).1 (all c member), fun c last => ?_⟩
  rw [← not_or, ← isBreak_iff, last_dropEndWhile last]
  exact Bool.false_ne_true

theorem getElem?_numberedLines {source : String} {place : Nat} {line : String}
    (found : (lines source)[place]? = some line) :
    (numberedLines source.toList)[place]? = some (place + 1, chomp line.toList) := by
  rw [lines, List.getElem?_map] at found
  obtain ⟨whole, present, rfl⟩ := Option.map_eq_some_iff.1 found
  rw [numberedLines, List.getElem?_map, List.getElem?_zipIdx, List.getElem?_map, present]
  simp [Nat.add_comm]

end Numbered

theorem lines_pieces (text : String) :
    (∀ pieces, lines text = pieces ↔ ArePieces pieces ∧ String.join pieces = text) ∧
    (numberedLines text.toList).length = (lines text).length ∧
    ∀ (i : Nat) (line : String), (lines text)[i]? = some line →
      ∃ shown, (numberedLines text.toList)[i]? = some (i + 1, shown) ∧
        Strips line.toList shown := by
  refine ⟨lines_eq_iff text, by simp [numberedLines, lines], fun i line found => ?_⟩
  exact ⟨chomp line.toList, getElem?_numberedLines found, strips_chomp line.toList⟩

theorem lines_pieces_returns :
    let text := "a\r\r\n\n b\r"
    ArePieces ["a\r\r\n", "\n", " b\r"] ∧ (lines text)[2]? = some " b\r" ∧
    ∃ shown, (numberedLines text.toList)[2]? = some (3, shown) ∧
      Strips [' ', 'b', '\r'] shown := by
  intro text
  obtain ⟨pieces, -, numbered⟩ := lines_pieces text
  have split : lines text = ["a\r\r\n", "\n", " b\r"] := by decide +kernel
  have third : (lines text)[2]? = some " b\r" := by rw [split]; rfl
  exact ⟨((pieces _).1 split).1, third, numbered 2 " b\r" third⟩

end LineLedger.Text
