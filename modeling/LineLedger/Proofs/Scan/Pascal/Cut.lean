import LineLedger.Scan.Pascal
import LineLedger.Proofs.Text.Word

set_option autoImplicit false

namespace LineLedger.Pascal

inductive Doubled : List Char → Prop where
  | nil : Doubled []
  | plain {c : Char} {rest : List Char} (plain : c ≠ '\'') : Doubled rest → Doubled (c :: rest)
  | pair {rest : List Char} : Doubled rest → Doubled ('\'' :: '\'' :: rest)

def openings : List (List Char) := [['\''], ['\x7b'], ['(', '*'], ['/', '/']]

-- A line cut into characters of code and gaps (`none`), with the comments that are open before and
-- after it. A gap is a comment, the part of one that stands on the line, or a quoted segment that
-- goes as far as it can.
inductive Cut : Comments → List Char → List (Option Char) → Comments → Prop where
  | ended : Cut .none [] [] .none
  | code {c : Char} {rest : List Char} {parts : List (Option Char)} {after : Comments}
    (opens : ∀ opening ∈ openings, ¬ opening <+: c :: rest) :
    Cut .none rest parts after → Cut .none (c :: rest) (some c :: parts) after
  | slashes {rest : List Char} : Cut .none ('/' :: '/' :: rest) [none] .none
  | quoted {inside rest : List Char} {parts : List (Option Char)} {after : Comments}
    (pairs : Doubled inside) (ends : rest.head? ≠ some '\'') :
    Cut .none rest parts after → Cut .none ('\'' :: (inside ++ '\'' :: rest)) (none :: parts) after
  | unended {inside : List Char} (pairs : Doubled inside) :
    Cut .none ('\'' :: inside) [none] .none
  | brace {rest : List Char} {parts : List (Option Char)} {after : Comments} :
    Cut ⟨true, false⟩ rest parts after → Cut .none ('\x7b' :: rest) parts after
  | paren {rest : List Char} {parts : List (Option Char)} {after : Comments} :
    Cut ⟨false, true⟩ rest parts after → Cut .none ('(' :: '*' :: rest) parts after
  | braceEnds {outer : Bool} {inside rest : List Char} {parts : List (Option Char)}
    {after : Comments} (first : '\x7d' ∉ inside) :
    Cut ⟨false, outer⟩ rest parts after →
      Cut ⟨true, outer⟩ (inside ++ '\x7d' :: rest) (none :: parts) after
  | braceStays {outer : Bool} {inside : List Char} (unclosed : '\x7d' ∉ inside) :
    Cut ⟨true, outer⟩ inside [none] ⟨true, outer⟩
  | parenEnds {inside rest : List Char} {parts : List (Option Char)} {after : Comments}
    (first : ¬ ['*', ')'] <:+: inside) :
    Cut .none rest parts after →
      Cut ⟨false, true⟩ (inside ++ '*' :: ')' :: rest) (none :: parts) after
  | parenStays {inside : List Char} (unclosed : ¬ ['*', ')'] <:+: inside) :
    Cut ⟨false, true⟩ inside [none] ⟨false, true⟩

section Strip

variable {quoted outer : Bool} {inside : List Char}

theorem strip_brace (first : '\x7d' ∉ inside) (rest : List Char) :
    strip ⟨true, outer⟩ quoted (inside ++ rest) = strip ⟨true, outer⟩ quoted rest := by
  induction inside with
  | nil => rfl
  | cons c more ih =>
    rw [List.mem_cons, not_or] at first
    rw [List.cons_append, strip, decide_eq_true (Ne.symm first.1), ih first.2]

theorem strip_open_brace (unclosed : '\x7d' ∉ inside) :
    strip ⟨true, outer⟩ quoted inside = ([' '], ⟨true, outer⟩) := by
  simpa only [List.append_nil, strip_nil] using strip_brace unclosed []

theorem strip_paren (first : ¬ ['*', ')'] <:+: inside) {rest : List Char}
    (apart : rest.head? ≠ some ')') :
    strip ⟨false, true⟩ quoted (inside ++ rest) = strip ⟨false, true⟩ quoted rest := by
  induction inside with
  | nil => rfl
  | cons c more ih =>
    rw [List.infix_cons_iff, not_or] at first
    have goesOn : ∀ tail, c = '*' → more ++ rest = ')' :: tail → False := by
      intro tail star bracket
      cases more with
      | nil => exact apart (by rw [show rest = _ from bracket]; rfl)
      | cons d others =>
        cases bracket
        exact first.1 ⟨others, star ▸ rfl⟩
    rw [List.cons_append, strip, ih first.2]
    exact goesOn

theorem strip_open_paren (unclosed : ¬ ['*', ')'] <:+: inside) :
    strip ⟨false, true⟩ quoted inside = ([' '], ⟨false, true⟩) := by
  have apart : ([] : List Char).head? ≠ some ')' := nofun
  simpa only [List.append_nil, strip_nil] using strip_paren unclosed apart

theorem strip_doubled (pairs : Doubled inside) (rest : List Char) :
    strip .none true (inside ++ rest) = strip .none true rest := by
  induction pairs with
  | nil => rfl
  | plain plain _ ih =>
    rw [List.cons_append, Comments.none, strip]
    · exact ih
    · exact plain
  | pair _ ih =>
    simp only [Comments.none] at ih
    simp only [List.cons_append, Comments.none, strip, Bool.not_true, Bool.not_false, ih]

theorem strip_unended (pairs : Doubled inside) :
    strip .none true inside = ([' '], .none) := by
  simpa only [List.append_nil, Comments.none, strip_nil] using strip_doubled pairs []

theorem strip_code {c : Char} {rest : List Char}
    (opens : ∀ opening ∈ openings, ¬ opening <+: c :: rest) :
    strip .none false (c :: rest) =
      (c :: (strip .none false rest).1, (strip .none false rest).2) := by
  simp only [openings, List.forall_mem_cons] at opens
  obtain ⟨quote, brace, paren, slashes, _⟩ := opens
  rw [Comments.none, strip]
  · rintro rfl
    exact quote ⟨rest, rfl⟩
  · rintro rfl
    exact brace ⟨rest, rfl⟩
  · rintro more rfl rfl
    exact paren ⟨more, rfl⟩
  · rintro more rfl rfl
    exact slashes ⟨more, rfl⟩

end Strip

section Exists

theorem exists_bracket (text : List Char) : ¬ ['*', ')'] <:+: text ∨
    ∃ inside rest, text = inside ++ '*' :: ')' :: rest ∧ ¬ ['*', ')'] <:+: inside := by
  induction text with
  | nil => exact .inl (by simp)
  | cons c more ih =>
    by_cases here : ['*', ')'] <+: c :: more
    · obtain ⟨rest, split⟩ := here
      exact .inr ⟨[], rest, split.symm, by simp⟩
    rcases ih with none | ⟨inside, rest, split, first⟩
    · exact .inl fun found => (List.infix_cons_iff.1 found).elim here none
    · refine .inr ⟨c :: inside, rest, congrArg (c :: ·) split, fun found => ?_⟩
      rcases List.infix_cons_iff.1 found with starts | later
      · rw [split] at here
        exact here (starts.trans (List.prefix_append (c :: inside) _))
      · exact first later

theorem exists_quote : ∀ text : List Char, Doubled text ∨
    ∃ inside rest, text = inside ++ '\'' :: rest ∧ Doubled inside ∧ rest.head? ≠ some '\''
  | [] => .inl .nil
  | c :: rest => by
    by_cases quote : c = '\''
    · subst quote
      by_cases twice : rest.head? = some '\''
      · obtain ⟨others, rfl⟩ := List.head?_eq_some_iff.1 twice
        rcases exists_quote others with pairs | ⟨inside, more, split, pairs, ends⟩
        · exact .inl (.pair pairs)
        · exact .inr ⟨'\'' :: '\'' :: inside, more, by rw [split]; rfl, .pair pairs, ends⟩
      · exact .inr ⟨[], rest, rfl, .nil, twice⟩
    · rcases exists_quote rest with pairs | ⟨inside, more, split, pairs, ends⟩
      · exact .inl (.plain quote pairs)
      · exact .inr ⟨c :: inside, more, congrArg (c :: ·) split, .plain quote pairs, ends⟩
termination_by text => text.length

variable {line : List Char} (shorter : ∀ comments rest, rest.length < line.length →
  ∃ parts after, Cut comments rest parts after)

include shorter

theorem exists_cut_brace (outer : Bool) : ∃ parts after, Cut ⟨true, outer⟩ line parts after := by
  by_cases closed : '\x7d' ∈ line
  · obtain ⟨inside, rest, rfl, first⟩ := List.eq_append_cons_of_mem closed
    obtain ⟨parts, after, cut⟩ := shorter ⟨false, outer⟩ rest (by simp; omega)
    exact ⟨_, _, .braceEnds first cut⟩
  · exact ⟨_, _, .braceStays closed⟩

theorem exists_cut_paren : ∃ parts after, Cut ⟨false, true⟩ line parts after := by
  rcases exists_bracket line with unclosed | ⟨inside, rest, rfl, first⟩
  · exact ⟨_, _, .parenStays unclosed⟩
  · obtain ⟨parts, after, cut⟩ := shorter .none rest (by simp; omega)
    exact ⟨_, _, .parenEnds first cut⟩

theorem exists_cut_code : ∃ parts after, Cut .none line parts after := by
  by_cases opens : ∃ opening ∈ openings, opening <+: line
  · simp only [openings, List.mem_cons, List.not_mem_nil, or_false, exists_eq_or_imp,
      exists_eq_left] at opens
    obtain ⟨rest, rfl⟩ | ⟨rest, rfl⟩ | ⟨rest, rfl⟩ | ⟨rest, rfl⟩ := opens
    · rcases exists_quote rest with pairs | ⟨inside, more, rfl, pairs, ends⟩
      · exact ⟨_, _, .unended pairs⟩
      · obtain ⟨parts, after, cut⟩ := shorter .none more (by simp; omega)
        exact ⟨_, _, .quoted pairs ends cut⟩
    · obtain ⟨parts, after, cut⟩ := shorter ⟨true, false⟩ rest (by simp)
      exact ⟨_, _, .brace cut⟩
    · obtain ⟨parts, after, cut⟩ := shorter ⟨false, true⟩ rest
        (by simp only [List.cons_append, List.nil_append, List.length_cons]; omega)
      exact ⟨_, _, .paren cut⟩
    · exact ⟨_, _, .slashes⟩
  · cases line with
    | nil => exact ⟨_, _, .ended⟩
    | cons c rest =>
      obtain ⟨parts, after, cut⟩ := shorter .none rest (by simp)
      exact ⟨_, _, .code (fun opening listed starts => opens ⟨opening, listed, starts⟩) cut⟩

omit shorter

theorem exists_cut (comments : Comments) (line : List Char) :
    ∃ parts after, Cut comments line parts after := by
  induction size : line.length using Nat.strongRecOn generalizing comments line with
  | ind size' ih =>
    have shorter (comments : Comments) (rest : List Char) (less : rest.length < line.length) :
        ∃ parts after, Cut comments rest parts after := ih _ (size ▸ less) comments rest rfl
    match comments with
    | ⟨true, outer⟩ => exact exists_cut_brace shorter outer
    | ⟨false, true⟩ => exact exists_cut_paren shorter
    | ⟨false, false⟩ => exact exists_cut_code shorter

end Exists

theorem cut_code {line rest : List Char} {parts : List (Option Char)} {after : Comments}
    (plain : ∀ c ∈ line, ∀ opening ∈ openings, opening.head? ≠ some c)
    (cut : Cut .none rest parts after) :
    Cut .none (line ++ rest) (line.map some ++ parts) after := by
  induction line with
  | nil => exact cut
  | cons c more ih =>
    have ⟨here, later⟩ := List.forall_mem_cons.1 plain
    refine .code (fun opening listed starts => here opening listed ?_) (ih later)
    obtain ⟨tail, split⟩ := starts
    cases opening with
    | nil => exact absurd listed (by decide)
    | cons d others => exact congrArg some (List.cons.inj split).1

def kept (parts : List (Option Char)) : List Char := parts.filterMap id

def spaced (parts : List (Option Char)) : List Char := parts.map (·.getD ' ')

theorem strip_of_cut {comments after : Comments} {line : List Char} {parts : List (Option Char)}
    (cut : Cut comments line parts after) :
    strip comments false line = (kept parts ++ [' '], after) := by
  induction cut with
  | ended => rfl
  | code opens _ ih => rw [strip_code opens, ih]; rfl
  | slashes => rfl
  | quoted pairs _ _ ih =>
    rw [Comments.none, strip]
    exact (strip_doubled pairs _).trans ih
  | unended pairs =>
    rw [Comments.none, strip]
    exact strip_unended pairs
  | brace _ ih => exact ih
  | paren _ ih => exact ih
  | braceEnds first _ ih => rw [strip_brace first]; exact ih
  | braceStays unclosed => exact strip_open_brace unclosed
  | parenEnds first _ ih =>
    rw [strip_paren first (by simp)]
    exact ih
  | parenStays unclosed => exact strip_open_paren unclosed

-- Two characters of words with nothing but gaps between them.
def Fuses (parts : List (Option Char)) : Prop :=
  ∃ front c gaps d back,
    parts = front ++ some c :: none :: (List.replicate gaps none ++ some d :: back) ∧
    Text.isCodeChar c = true ∧ Text.isCodeChar d = true

section Fuses

variable {c : Char} {rest : List (Option Char)}

theorem head?_kept {parts : List (Option Char)} {d : Char} :
    (kept parts).head? = some d ↔
      ∃ gaps back, parts = List.replicate gaps none ++ some d :: back := by
  induction parts with
  | nil => simp [kept]
  | cons part rest ih =>
    cases part with
    | none =>
      refine ih.trans ⟨?_, ?_⟩
      · rintro ⟨gaps, back, rfl⟩
        exact ⟨gaps + 1, back, rfl⟩
      · rintro ⟨gaps, back, same⟩
        cases gaps with
        | zero => cases same
        | succ gaps => exact ⟨gaps, back, (List.cons.inj same).2⟩
    | some c =>
      refine ⟨?_, ?_⟩
      · rintro ⟨⟩
        exact ⟨0, rest, rfl⟩
      · rintro ⟨gaps, back, same⟩
        cases gaps with
        | zero => cases same; rfl
        | succ gaps => cases same

theorem fuses_gap : Fuses (none :: rest) ↔ Fuses rest := by
  refine ⟨?_, ?_⟩
  · rintro ⟨front, c, gaps, d, back, same, codes⟩
    cases front with
    | nil => cases same
    | cons part front => exact ⟨front, c, gaps, d, back, (List.cons.inj same).2, codes⟩
  · rintro ⟨front, c, gaps, d, back, rfl, codes⟩
    exact ⟨none :: front, c, gaps, d, back, rfl, codes⟩

theorem fuses_code : Fuses (some c :: rest) ↔ Fuses rest ∨
    Text.isCodeChar c = true ∧ rest.head? = some none ∧
      (kept rest).head?.any Text.isCodeChar = true := by
  refine ⟨?_, ?_⟩
  · rintro ⟨front, e, gaps, d, back, same, codes⟩
    cases front with
    | nil =>
      cases same
      have starts : (kept (none :: (List.replicate gaps none ++ some d :: back))).head? = some d :=
        head?_kept.2 ⟨gaps + 1, back, rfl⟩
      exact .inr ⟨codes.1, rfl, (Option.any_eq_true _ _).2 ⟨d, starts, codes.2⟩⟩
    | cons part front =>
      exact .inl ⟨front, e, gaps, d, back, (List.cons.inj same).2, codes⟩
  · rintro (⟨front, e, gaps, d, back, rfl, codes⟩ | ⟨code, gap, starts⟩)
    · exact ⟨some c :: front, e, gaps, d, back, rfl, codes⟩
    · obtain ⟨more, rfl⟩ := List.head?_eq_some_iff.1 gap
      obtain ⟨d, first, code'⟩ := (Option.any_eq_true _ _).1 starts
      obtain ⟨gaps, back, rfl⟩ := head?_kept.1 (show (kept more).head? = some d from first)
      exact ⟨[], c, gaps, d, back, rfl, code, code'⟩

end Fuses

-- The words of the line with its gaps spaced, in groups that are one word when they are closed.
structure Grouped (parts : List (Option Char)) (groups : List (List (List Char))) : Prop where
  apart : groups.flatten = Text.codeWords (spaced parts)
  joined : groups.map List.flatten = Text.codeWords (kept parts)
  nonempty : ∀ group ∈ groups, group ≠ []
  single : (∀ group ∈ groups, group.length = 1) ↔ ¬ Fuses parts

-- A gap is spaced with a character of no word.
theorem isCodeChar_space : Text.isCodeChar ' ' = false := by decide

namespace Grouped

variable {c : Char} {rest : List (Option Char)} {groups : List (List (List Char))}

theorem gap (grouped : Grouped rest groups) : Grouped (none :: rest) groups where
  apart := grouped.apart.trans (Text.codeWords_cons_of_apart isCodeChar_space _).symm
  joined := grouped.joined
  nonempty := grouped.nonempty
  single := by rw [fuses_gap, grouped.single]

theorem separator (grouped : Grouped rest groups) (apart : Text.isCodeChar c = false) :
    Grouped (some c :: rest) groups where
  apart := grouped.apart.trans (Text.codeWords_cons_of_apart apart _).symm
  joined := grouped.joined.trans (Text.codeWords_cons_of_apart apart _).symm
  nonempty := grouped.nonempty
  single := by simp [fuses_code, grouped.single, apart]

section Code

variable (grouped : Grouped rest groups) (code : Text.isCodeChar c = true)

include grouped code

theorem word_spaced : Text.codeWords (spaced (some c :: rest)) =
    if (spaced rest).head?.any Text.isCodeChar then groups.flatten.modifyHead (c :: ·)
    else [c] :: groups.flatten := by
  rw [grouped.apart]
  exact Text.codeWords_cons code _

theorem word_kept : Text.codeWords (kept (some c :: rest)) =
    if (kept rest).head?.any Text.isCodeChar then (groups.map List.flatten).modifyHead (c :: ·)
    else [c] :: groups.map List.flatten := by
  rw [grouped.joined]
  exact Text.codeWords_cons code _

-- A word ends behind the character, with no other close by.
theorem alone (last : (spaced rest).head?.any Text.isCodeChar = false)
    (closed : (kept rest).head?.any Text.isCodeChar = false) :
    Grouped (some c :: rest) ([[c]] :: groups) where
  apart := by rw [word_spaced grouped code, last]; rfl
  joined := by rw [word_kept grouped code, closed]; simp
  nonempty := List.forall_mem_cons.2 ⟨List.cons_ne_nil _ _, grouped.nonempty⟩
  single := by simp [fuses_code, ← grouped.single, closed]

omit code in
theorem exists_cons (first : (kept rest).head?.any Text.isCodeChar = true) :
    ∃ word words more, groups = (word :: words) :: more := by
  obtain ⟨d, starts, code⟩ := (Option.any_eq_true _ _).1 first
  obtain ⟨tail, split⟩ := List.head?_eq_some_iff.1 starts
  obtain ⟨word, words, listed⟩ := Text.exists_codeWords_cons code tail
  cases groups with
  | nil =>
    have none := grouped.joined
    rw [split, listed] at none
    cases none
  | cons group more =>
    cases group with
    | nil => exact absurd rfl (grouped.nonempty [] (List.mem_cons_self ..))
    | cons word words => exact ⟨word, words, more, rfl⟩

-- A word goes on behind the character.
theorem onto {d : Char} {tail : List (Option Char)} (goes : rest = some d :: tail)
    (code' : Text.isCodeChar d = true) : ∃ groups, Grouped (some c :: rest) groups := by
  have next : (spaced rest).head?.any Text.isCodeChar = true := by rw [goes]; exact code'
  have closed : (kept rest).head?.any Text.isCodeChar = true := by rw [goes]; exact code'
  obtain ⟨word, words, more, rfl⟩ := grouped.exists_cons closed
  refine ⟨((c :: word) :: words) :: more, ?apart, ?joined, ?nonempty, ?single⟩
  case apart => rw [word_spaced grouped code, next]; rfl
  case joined => rw [word_kept grouped code, closed]; rfl
  case nonempty =>
    exact List.forall_mem_cons.2
      ⟨List.cons_ne_nil _ _, (List.forall_mem_cons.1 grouped.nonempty).2⟩
  case single =>
    have same : Fuses (some c :: rest) ↔ Fuses rest := by simp [fuses_code, goes]
    rw [same, ← grouped.single]
    simp

-- A word closes up to the character.
theorem fused (gap : rest.head? = some none)
    (closed : (kept rest).head?.any Text.isCodeChar = true) :
    ∃ groups, Grouped (some c :: rest) groups := by
  have last : (spaced rest).head?.any Text.isCodeChar = false := by
    obtain ⟨tail, rfl⟩ := List.head?_eq_some_iff.1 gap
    exact isCodeChar_space
  obtain ⟨word, words, more, rfl⟩ := grouped.exists_cons closed
  refine ⟨([c] :: word :: words) :: more, ?apart, ?joined, ?nonempty, ?single⟩
  case apart => rw [word_spaced grouped code, last]; rfl
  case joined => rw [word_kept grouped code, closed]; rfl
  case nonempty =>
    exact List.forall_mem_cons.2
      ⟨List.cons_ne_nil _ _, (List.forall_mem_cons.1 grouped.nonempty).2⟩
  case single =>
    have fuses : Fuses (some c :: rest) := fuses_code.2 (.inr ⟨code, gap, closed⟩)
    simp [fuses]

end Code

end Grouped

theorem exists_grouped (parts : List (Option Char)) : ∃ groups, Grouped parts groups := by
  induction parts with
  | nil => exact ⟨[], rfl, rfl, by simp, by simp [Fuses]⟩
  | cons part rest ih =>
    obtain ⟨groups, grouped⟩ := ih
    cases part with
    | none => exact ⟨groups, grouped.gap⟩
    | some c =>
      cases code : Text.isCodeChar c with
      | false => exact ⟨groups, grouped.separator code⟩
      | true =>
        cases rest with
        | nil => exact ⟨_, grouped.alone code rfl rfl⟩
        | cons next tail =>
          cases next with
          | none =>
            cases closed : (kept (none :: tail)).head?.any Text.isCodeChar with
            | false => exact ⟨_, grouped.alone code isCodeChar_space closed⟩
            | true => exact grouped.fused code rfl closed
          | some d =>
            cases code' : Text.isCodeChar d with
            | false => exact ⟨_, grouped.alone code code' code'⟩
            | true => exact grouped.onto code rfl code'

section Groups

variable {groups : List (List (List Char))}

theorem length_le_flatten (nonempty : ∀ group ∈ groups, group ≠ []) :
    groups.length ≤ groups.flatten.length := by
  induction groups with
  | nil => exact Nat.le_refl _
  | cons group more ih =>
    have ⟨here, later⟩ := List.forall_mem_cons.1 nonempty
    have some := List.length_pos_iff.2 here
    have rest := ih later
    simp only [List.flatten_cons, List.length_append, List.length_cons]
    omega

theorem single_of_length (nonempty : ∀ group ∈ groups, group ≠ [])
    (same : groups.flatten.length = groups.length) : ∀ group ∈ groups, group.length = 1 := by
  induction groups with
  | nil => exact fun group member => nomatch member
  | cons group more ih =>
    have ⟨here, later⟩ := List.forall_mem_cons.1 nonempty
    have some := List.length_pos_iff.2 here
    have rest := length_le_flatten later
    simp only [List.flatten_cons, List.length_append, List.length_cons] at same
    exact List.forall_mem_cons.2 ⟨by omega, ih later (by omega)⟩

theorem map_flatten_of_single (single : ∀ group ∈ groups, group.length = 1) :
    groups.map List.flatten = groups.flatten := by
  induction groups with
  | nil => rfl
  | cons group more ih =>
    have ⟨here, later⟩ := List.forall_mem_cons.1 single
    obtain ⟨word, rfl⟩ := List.length_eq_one_iff.1 here
    simp [ih later]

end Groups

theorem codeWords_kept (parts : List (Option Char)) :
    Text.codeWords (kept parts ++ [' ']) = Text.codeWords (kept parts) :=
  Text.codeWords_append_blank (List.forall_mem_singleton.2 (by decide)) _

theorem words_eq_iff (parts : List (Option Char)) :
    words (kept parts ++ [' ']) = words (spaced parts) ↔ ¬ Fuses parts := by
  obtain ⟨groups, grouped⟩ := exists_grouped parts
  rw [words, words, codeWords_kept, ← grouped.apart, ← grouped.joined, ← grouped.single]
  refine ⟨fun same => single_of_length grouped.nonempty ?_, fun single => ?_⟩
  · have counts := congrArg List.length same
    simp only [List.length_map] at counts
    exact counts.symm
  · rw [map_flatten_of_single single]

theorem words_of_cut (comments : Comments) (line : List Char) :
    (∃ parts after, Cut comments line parts after) ∧
    ∀ (parts : List (Option Char)) (after : Comments), Cut comments line parts after →
      strip comments false line = (kept parts ++ [' '], after) ∧
      (words (strip comments false line).1 = words (spaced parts) ↔ ¬ Fuses parts) ∧
      ∃ groups : List (List (List Char)),
        groups.flatten = Text.codeWords (spaced parts) ∧
        groups.map List.flatten = Text.codeWords (strip comments false line).1 ∧
        ∀ group ∈ groups, group ≠ [] := by
  refine ⟨exists_cut comments line, fun parts after cut => ?_⟩
  obtain ⟨groups, grouped⟩ := exists_grouped parts
  rw [strip_of_cut cut]
  exact ⟨rfl, words_eq_iff parts, groups, grouped.apart,
    grouped.joined.trans (codeWords_kept parts).symm, grouped.nonempty⟩

def spread : List Char :=
  ['x'] ++ '*' :: ')' :: ([' ', 'e', 'n', 'd', ' '] ++
    '\'' :: (['a', '\'', '\'', 'b'] ++ '\'' :: ([' ', 'd', 'o'] ++ '/' :: '/' :: ['z'])))

def spreadParts : List (Option Char) :=
  none :: ([' ', 'e', 'n', 'd', ' '].map some ++ none :: ([' ', 'd', 'o'].map some ++ [none]))

theorem words_of_cut_spread :
    Cut ⟨false, true⟩ spread spreadParts .none ∧ ¬ Fuses spreadParts ∧
    words (strip ⟨false, true⟩ false spread).1 = ["end", "do"] := by
  have text : Doubled ['a', '\'', '\'', 'b'] :=
    .plain (by decide) (.pair (.plain (by decide) .nil))
  have cut : Cut ⟨false, true⟩ spread spreadParts .none :=
    .parenEnds (by decide)
      (cut_code (by simp [openings])
        (.quoted text (by decide) (cut_code (by simp [openings]) .slashes)))
  exact ⟨cut, ((words_of_cut _ _).2 _ _ cut).2.1.1 (by decide +kernel), by decide +kernel⟩

def joint : List Char := ['e', 'n', 'd'] ++ '\x7b' :: (['x'] ++ '\x7d' :: ['e', 'l', 's', 'e'])

def jointParts : List (Option Char) :=
  ['e', 'n', 'd'].map some ++ none :: ['e', 'l', 's', 'e'].map some

theorem words_fused :
    Cut .none joint jointParts .none ∧
    words (strip .none false joint).1 = ["endelse"] ∧
    words (spaced jointParts) = ["end", "else"] := by
  have last : Cut .none (['e', 'l', 's', 'e'] ++ []) (['e', 'l', 's', 'e'].map some ++ []) .none :=
    cut_code (by simp [openings]) .ended
  have cut : Cut .none joint jointParts .none :=
    cut_code (by simp [openings]) (.brace (.braceEnds (by decide) last))
  exact ⟨cut, by decide +kernel, by decide +kernel⟩

end LineLedger.Pascal
