import LineLedger.Text.Lines

set_option autoImplicit false

namespace LineLedger.Text

theorem splitLines_eq_nil_iff (text : List Char) : splitLines text = [] ↔ text = [] := by
  constructor
  · intro none
    rw [← flatten_splitLines text, none]
    rfl
  · rintro rfl
    rfl

theorem endsLine_cons {c : Char} {rest : List Char} (more : rest ≠ []) :
    endsLine (c :: rest) = endsLine rest := by
  obtain ⟨d, tail, rfl⟩ := List.exists_cons_of_ne_nil more
  simp [endsLine]

theorem splitLines_append {first : List Char} (ended : endsLine first = true)
    (second : List Char) :
    splitLines (first ++ second) = splitLines first ++ splitLines second := by
  induction first with
  | nil => simp [endsLine] at ended
  | cons c rest ih =>
      by_cases last : rest = []
      · subst last
        have feed : c = '\n' := by simpa [endsLine] using ended
        simp [splitLines, feed]
      · have split := ih (by rwa [endsLine_cons last] at ended)
        rw [List.cons_append, splitLines, splitLines, split]
        split
        · rfl
        · -- The rest has a first line, which takes the character up.
          cases lines : splitLines rest with
          | nil => exact absurd ((splitLines_eq_nil_iff rest).1 lines) last
          | cons line more => rfl

structure IsLine (line : List Char) : Prop where
  inhabited : line ≠ []
  single : splitLines line = [line]
  ended : endsLine line = false → '\n' ∉ line

theorem isLine_feed : IsLine ['\n'] where
  inhabited := by simp
  single := rfl
  ended := by simp [endsLine]

theorem isLine_single {c : Char} (other : c ≠ '\n') : IsLine [c] where
  inhabited := by simp
  single := by simp [splitLines, other]
  ended _ := by simpa using Ne.symm other

theorem IsLine.cons {line : List Char} (isLine : IsLine line) {c : Char} (other : c ≠ '\n') :
    IsLine (c :: line) where
  inhabited := by simp
  single := by rw [splitLines, if_neg other, isLine.single]
  ended unended := by
    rw [endsLine_cons isLine.inhabited] at unended
    simpa [Ne.symm other] using isLine.ended unended

theorem isLine_of_mem {text line : List Char} (member : line ∈ splitLines text) :
    IsLine line := by
  induction text generalizing line with
  | nil => cases member
  | cons c rest ih =>
      rw [splitLines] at member
      split at member
      · rcases List.mem_cons.1 member with here | later
        · exact here ▸ isLine_feed
        · exact ih later
      · rename_i other
        split at member
        · rw [List.mem_singleton.1 member]
          exact isLine_single other
        · rename_i first lines split
          rw [split] at ih
          rcases List.mem_cons.1 member with here | later
          · rw [here]
            exact (ih (List.mem_cons_self ..)).cons other
          · exact ih (List.mem_cons_of_mem _ later)

theorem splitLines_append_feed {text : List Char} (unended : '\n' ∉ text) :
    splitLines (text ++ ['\n']) = [text ++ ['\n']] := by
  induction text with
  | nil => rfl
  | cons c rest ih =>
      have other : c ≠ '\n' := fun feed => unended (feed ▸ List.mem_cons_self ..)
      have split := ih fun feed => unended (List.mem_cons_of_mem _ feed)
      rw [List.cons_append, splitLines, if_neg other, split]

theorem IsLine.terminate {line : List Char} (isLine : IsLine line) :
    splitLines (terminate line) = [terminate line] := by
  rw [Text.terminate]
  cases ended : endsLine line with
  | true => exact isLine.single
  | false => exact splitLines_append_feed (isLine.ended ended)

theorem IsLine.free {body : List Char} (isLine : IsLine (body ++ ['\n'])) : '\n' ∉ body := by
  intro feed
  obtain ⟨first, second, rfl⟩ := List.append_of_mem feed
  have parts : first ++ '\n' :: second ++ ['\n'] = (first ++ ['\n']) ++ (second ++ ['\n']) := by
    simp
  have count := congrArg List.length isLine.single
  rw [parts, splitLines_append (by simp [endsLine]), List.length_append, List.length_singleton]
    at count
  have before : 0 < (splitLines (first ++ ['\n'])).length := by
    simp [List.length_pos_iff, splitLines_eq_nil_iff]
  have after : 0 < (splitLines (second ++ ['\n'])).length := by
    simp [List.length_pos_iff, splitLines_eq_nil_iff]
  omega

theorem endsLine_of_mem_dropLast {text line : List Char}
    (member : line ∈ (splitLines text).dropLast) : endsLine line = true := by
  induction text generalizing line with
  | nil => cases member
  | cons c rest ih =>
      rw [splitLines] at member
      split at member
      · cases lines : splitLines rest with
        | nil => simp [lines] at member
        | cons first more =>
            rw [lines, List.dropLast_cons_of_ne_nil (by simp)] at member
            rcases List.mem_cons.1 member with here | later
            · simp [here, endsLine]
            · exact ih (lines ▸ later)
      · split at member
        · simp at member
        · rename_i first lines split
          cases lines with
          | nil => simp at member
          | cons second more =>
              rw [List.dropLast_cons_of_ne_nil (by simp)] at member
              rw [split, List.dropLast_cons_of_ne_nil (by simp)] at ih
              rcases List.mem_cons.1 member with here | later
              · have inhabited : first ≠ [] :=
                  (isLine_of_mem (split ▸ List.mem_cons_self ..)).inhabited
                rw [here, endsLine_cons inhabited]
                exact ih (List.mem_cons_self ..)
              · exact ih (List.mem_cons_of_mem _ later)

section Strings

def lineCount (text : String) : Nat := (lines text).length

theorem join_lines (text : String) : String.join (lines text) = text := by
  rw [← String.toList_inj, String.toList_join, lines, List.flatMap_map]
  simp only [String.toList_ofList, List.flatMap_id', flatten_splitLines]

theorem terminated_of_endsLine {text : String} (ended : endsLine text.toList = true) :
    terminated text = text := by
  rw [terminated, terminate, if_pos ended, String.ofList_toList]

theorem endsLine_terminated (text : String) : endsLine (terminated text).toList = true := by
  simp [terminated, endsLine_terminate]

theorem lines_append {first : String} (ended : endsLine first.toList = true) (second : String) :
    lines (first ++ second) = lines first ++ lines second := by
  rw [lines, String.toList_append, splitLines_append ended, List.map_append, lines, lines]

theorem lineCount_append {first : String} (ended : endsLine first.toList = true) (second : String) :
    lineCount (first ++ second) = lineCount first + lineCount second := by
  rw [lineCount, lines_append ended, List.length_append, lineCount, lineCount]

theorem lineCount_pos {text : String} (ended : endsLine text.toList = true) : 0 < lineCount text := by
  rw [lineCount, lines, List.length_map, List.length_pos_iff, Ne, splitLines_eq_nil_iff]
  intro empty
  simp [empty, endsLine] at ended

-- Parts that end in a line feed have a line each at least, and no more only if each is one.
theorem lineCount_join {parts : List String} (ended : ∀ part ∈ parts, endsLine part.toList = true) :
    parts.length ≤ lineCount (String.join parts) ∧
      (lineCount (String.join parts) = parts.length ↔ ∀ part ∈ parts, lineCount part = 1) := by
  induction parts with
  | nil => simp [lineCount, lines, splitLines]
  | cons part rest ih =>
      have here := ended part (List.mem_cons_self ..)
      obtain ⟨least, only⟩ := ih fun other later => ended other (List.mem_cons_of_mem _ later)
      have positive := lineCount_pos here
      rw [String.join_cons, lineCount_append here, List.length_cons, List.forall_mem_cons,
        ← only]
      omega

theorem lines_of_mem_lines {text line : String} (member : line ∈ lines text) :
    lines line = [line] := by
  obtain ⟨found, listed, rfl⟩ := List.mem_map.1 member
  rw [lines, String.toList_ofList, (isLine_of_mem listed).single]
  rfl

theorem ne_empty_of_mem_lines {text line : String} (member : line ∈ lines text) : line ≠ "" := by
  obtain ⟨found, listed, rfl⟩ := List.mem_map.1 member
  exact fun none => (isLine_of_mem listed).inhabited (String.ofList_eq_empty_iff.1 none)

theorem lines_terminated {line : String} (single : lines line = [line]) :
    lines (terminated line) = [terminated line] := by
  have listed : line ∈ lines line := by
    rw [single]
    exact List.mem_singleton_self line
  obtain ⟨found, member, rfl⟩ := List.mem_map.1 listed
  rw [lines, terminated, String.toList_ofList, String.toList_ofList,
    (isLine_of_mem member).terminate]
  rfl

theorem lines_of_endsLine {text : String} (ended : endsLine text.toList = true)
    (single : '\n' ∉ text.toList.dropLast) : lines text = [text] := by
  have last : text.toList.getLast? = some '\n' := by simpa [endsLine] using ended
  obtain ⟨before, split⟩ := List.getLast?_eq_some_iff.1 last
  rw [split, List.dropLast_concat] at single
  rw [lines, split, splitLines_append_feed single, ← split, List.map_singleton,
    String.ofList_toList]

theorem lines_join {parts : List String}
    (ended : ∀ part ∈ parts.dropLast, endsLine part.toList = true) :
    lines (String.join parts) = parts.flatMap lines := by
  induction parts with
  | nil => rfl
  | cons part rest ih =>
      cases rest with
      | nil => simp [String.join_cons]
      | cons next more =>
          rw [List.dropLast_cons_of_ne_nil (List.cons_ne_nil _ _), List.forall_mem_cons] at ended
          rw [String.join_cons, lines_append ended.1, ih ended.2, ← List.flatMap_cons]

theorem lines_join_of_single {parts : List String}
    (ended : ∀ part ∈ parts.dropLast, endsLine part.toList = true)
    (single : ∀ part ∈ parts, lines part = [part]) : lines (String.join parts) = parts := by
  rw [lines_join ended, List.flatMap_def, List.map_congr_left single]
  exact List.flatMap_singleton' _

theorem lines_join_append {parts : List String}
    (ended : ∀ part ∈ parts, endsLine part.toList = true) (rest : String) :
    lines (String.join parts ++ rest) = lines (String.join parts) ++ lines rest := by
  have all : ∀ part ∈ (parts ++ [rest]).dropLast, endsLine part.toList = true := by
    rwa [List.dropLast_concat]
  have split := lines_join all
  rw [String.join_append, List.flatMap_append,
    ← lines_join fun part member => ended part (List.dropLast_subset _ member)] at split
  simpa [String.join_cons] using split

end Strings

theorem numbers_numberedLines (text : List Char) :
    (numberedLines text).map Prod.fst = List.range' 1 (splitLines text).length := by
  have numbers : Prod.fst ∘ Prod.swap = (Prod.snd : List Char × Nat → Nat) := rfl
  rw [numberedLines, List.map_map, numbers, List.zipIdx_map_snd, List.length_map]

theorem texts_numberedLines (text : List Char) :
    (numberedLines text).map Prod.snd = (splitLines text).map chomp := by
  have texts : Prod.snd ∘ Prod.swap = (Prod.fst : List Char × Nat → List Char) := rfl
  rw [numberedLines, List.map_map, texts, List.zipIdx_map_fst]

end LineLedger.Text
