import LineLedger.Proofs.Text.Digits
import LineLedger.Toml.Quoted
import LineLedger.Toml.Write

set_option autoImplicit false

namespace LineLedger.Toml

section Escape

inductive Spelling (c : Char) : List Char → Prop where
  | plain (visible : isPlain c = true) (quote : c ≠ '"') (backslash : c ≠ '\\') : Spelling c [c]
  | short (letter : Char) (meant : shortEscape? letter = some c) : Spelling c ['\\', letter]
  | code (control : isControl c = true) : Spelling c ('\\' :: 'u' :: upperHex c.toNat)

theorem isPlain_of_not_isControl {c : Char} (visible : isControl c = false) : isPlain c = true := by
  simp only [isControl, Bool.or_eq_false_iff, decide_eq_false_iff_not] at visible
  simp [isPlain, visible.2, Nat.le_of_not_lt visible.1]

theorem spelling_writeChar {overLines : Bool} {c : Char} (quote : c ≠ '"')
    (within : overLines = false ∨ c ≠ '\n') : Spelling c (writeChar overLines c) := by
  unfold writeChar
  split
  case h_3 =>
    rw [within.resolve_right (· rfl)]
    exact .short 'n' rfl
  case h_7 backslash =>
    split
    · rename_i control
      exact .code control
    · rename_i visible
      exact .plain (isPlain_of_not_isControl (Bool.eq_false_iff.2 visible)) quote (by assumption)
  all_goals exact .short _ rfl

theorem codeEscape?_upperHex {c : Char} (control : isControl c = true) :
    ∃ a b d e, upperHex c.toNat = [a, b, d, e] ∧ codeEscape? [a, b, d, e] = some c := by
  have within : c.toNat < Nat.pow 16 4 := by
    have bound : Nat.pow 16 4 = 65536 := rfl
    simp only [isControl, Bool.or_eq_true, decide_eq_true_eq] at control
    omega
  have number := Text.hexNumber?_hexDigits Char.toUpper Text.hexValue?_toUpper_digitChar within
  refine ⟨_, _, _, _, rfl, ?_⟩
  change (Text.hexNumber? (upperHex c.toNat)).bind _ = _
  have valid : c.toNat.isValidChar := c.valid
  rw [upperHex, number, Option.bind_some, if_pos valid, Char.ofNat_toNat]

theorem letter_ne {letter c : Char} (meant : shortEscape? letter = some c) :
    letter ≠ 'u' ∧ letter ≠ 'U' ∧ letter ≠ '\r' := by
  refine ⟨?_, ?_, ?_⟩ <;> rintro rfl <;> cases meant

theorem Spelling.takeBasic_append {c : Char} {spelling : List Char} (spelled : Spelling c spelling)
    (rest : List Char) : takeBasic (spelling ++ rest) = Taken.add c (takeBasic rest) := by
  cases spelled with
  | plain visible quote backslash =>
      rw [List.singleton_append, takeBasic.eq_6] <;> simp [visible, quote, backslash]
  | short letter meant =>
      have ⟨small, capital, _⟩ := letter_ne meant
      rw [List.cons_append, List.singleton_append, takeBasic.eq_5, meant, Option.bind_some] <;>
        simp [small, capital]
  | code control =>
      obtain ⟨a, b, d, e, digits, meant⟩ := codeEscape?_upperHex control
      rw [digits]
      simp only [List.cons_append, List.nil_append, takeBasic.eq_3, meant, Option.bind_some]

theorem Spelling.takeBasicLines_append {c : Char} {spelling : List Char}
    (spelled : Spelling c spelling) (rest : List Char) :
    takeBasicLines .inside (spelling ++ rest) = Taken.add c (takeBasicLines .inside rest) := by
  cases spelled with
  | plain visible quote backslash =>
      have proper : c ≠ '\r' := by
        rintro rfl
        cases visible
      rw [List.singleton_append, takeBasicLines.eq_18] <;> simp [visible, quote, backslash, proper]
  | short letter meant =>
      have ⟨small, capital, proper⟩ := letter_ne meant
      rw [List.cons_append, List.singleton_append, takeBasicLines.eq_16, meant] <;>
        simp [small, capital, proper]
  | code control =>
      obtain ⟨a, b, d, e, digits, meant⟩ := codeEscape?_upperHex control
      rw [digits]
      simp only [List.cons_append, List.nil_append]
      rw [takeBasicLines.eq_12, meant, Option.bind_some]
      exact LineState.noConfusion

theorem Spelling.starts {c : Char} {spelling : List Char} (spelled : Spelling c spelling) :
    ∃ first more, spelling = first :: more ∧ first ≠ '"' ∧ first ≠ '\n' ∧ first ≠ '\r' := by
  cases spelled with
  | plain visible quote backslash =>
      refine ⟨c, [], rfl, quote, ?_, ?_⟩ <;> rintro rfl <;> cases visible
  | short letter meant => exact ⟨_, _, rfl, by decide⟩
  | code control => exact ⟨_, _, rfl, by decide⟩

theorem writeEscaped_cons {overLines : Bool} {run : Nat} {c : Char} (quote : c ≠ '"')
    (rest : List Char) : writeEscaped overLines run (c :: rest) =
      writeChar overLines c ++ writeEscaped overLines 0 rest := by
  rw [writeEscaped.eq_3]
  exact quote

theorem writeEscaped_starts {overLines : Bool} {c : Char} (within : overLines = false ∨ c ≠ '\n')
    (run : Nat) (text : List Char) : ∃ first more,
      writeEscaped overLines run (c :: text) = first :: more ∧ (overLines = false → first ≠ '"') ∧
        first ≠ '\n' ∧ first ≠ '\r' := by
  by_cases quote : c = '"'
  · rw [quote, writeEscaped]
    by_cases cut : (if overLines then 2 else 0) < run + 1
    · rw [if_pos cut]
      exact ⟨'\\', _, rfl, fun _ => by decide, by decide⟩
    · rw [if_neg cut]
      refine ⟨'"', _, rfl, ?_, by decide⟩
      rintro rfl
      exact absurd (Nat.succ_pos run) cut
  · obtain ⟨first, more, starts, mark, apart⟩ := (spelling_writeChar quote within).starts
    rw [writeEscaped_cons quote, starts]
    exact ⟨first, _, rfl, fun _ => mark, apart⟩

theorem takeBasic_writeEscaped (run : Nat) (text rest : List Char) :
    takeBasic (writeEscaped false run text ++ '"' :: rest) = some (text, rest) := by
  induction text generalizing run with
  | nil => exact takeBasic.eq_2 rest
  | cons c more ih =>
      by_cases quote : c = '"'
      · have escaped : Spelling '"' ['\\', '"'] := .short '"' rfl
        have spelled := escaped.takeBasic_append (writeEscaped false 0 more ++ '"' :: rest)
        rw [ih] at spelled
        rw [quote, writeEscaped, if_pos (by simp)]
        exact spelled
      · rw [writeEscaped_cons quote, List.append_assoc,
          (spelling_writeChar quote (.inl rfl)).takeBasic_append, ih]
        rfl

theorem takeLiteral_append {text : List Char}
    (plain : ∀ c ∈ text, isPlain c = true ∧ c ≠ '\'') (rest : List Char) :
    takeLiteral (text ++ '\'' :: rest) = some (text, rest) := by
  induction text with
  | nil => exact takeLiteral.eq_2 rest
  | cons c more ih =>
      have ⟨⟨visible, apart⟩, others⟩ := List.forall_mem_cons.1 plain
      rw [List.cons_append, takeLiteral.eq_3 _ _ apart, if_pos visible, ih others]
      rfl

end Escape

section Runs

variable {take : List Char → Taken} {mark : Char}

-- A reader of several lines, which three marks in a row close; up to two more before them belong to
-- the text.
structure ClosedBy (mark : Char) (take : List Char → Taken) : Prop where
  three : ∀ rest, rest.head? ≠ some mark → take (mark :: mark :: mark :: rest) = some ([], rest)
  four : ∀ rest, rest.head? ≠ some mark →
    take (mark :: mark :: mark :: mark :: rest) = some ([mark], rest)
  five : ∀ rest, take (mark :: mark :: mark :: mark :: mark :: rest) = some ([mark, mark], rest)
  lone : ∀ rest, (∀ after, rest ≠ mark :: mark :: after) →
    take (mark :: rest) = Taken.add mark (take rest)

inductive Body (mark : Char) (take : List Char → Taken) : Nat → List Char → List Char → Prop where
  | nil (run : Nat) : Body mark take run [] []
  | mark {run : Nat} {text written : List Char} (within : run < 2)
      (later : Body mark take (run + 1) text written) :
      Body mark take run (mark :: text) (mark :: written)
  | other {run : Nat} {c : Char} {text spelling written : List Char}
      (starts : ∃ first more, spelling = first :: more ∧ first ≠ mark)
      (reads : ∀ rest, take (spelling ++ rest) = Taken.add c (take rest))
      (later : Body mark take 0 text written) : Body mark take run (c :: text) (spelling ++ written)

theorem Body.take_append (closed : ClosedBy mark take) {run : Nat} {text written rest : List Char}
    (body : Body mark take run text written) (stops : rest.head? ≠ some mark) :
    take (written ++ mark :: mark :: mark :: rest) = some (text, rest) := by
  induction body with
  | nil => exact closed.three rest stops
  | other starts reads later ih =>
      rw [List.append_assoc, reads, ih]
      rfl
  | mark within later ih =>
      cases later with
      | nil => exact closed.four rest stops
      | other starts reads after =>
          obtain ⟨first, more, rfl, apart⟩ := starts
          rw [List.cons_append, closed.lone _ (by simp [apart]), ih]
          rfl
      | mark within last =>
          cases last with
          | nil => exact closed.five rest
          | other starts reads after =>
              obtain ⟨first, more, rfl, apart⟩ := starts
              rw [List.cons_append, closed.lone _ (by simp [apart]), ih]
              rfl
          | mark within more => omega

theorem closedBy_basicLines : ClosedBy '"' (takeBasicLines .inside) where
  three rest stops := by
    rw [takeBasicLines.eq_11]
    · exact fun after same => stops (same ▸ rfl)
    · exact fun after same => stops (same ▸ rfl)
    · exact LineState.noConfusion
  four rest stops := by
    rw [takeBasicLines.eq_10]
    · exact fun after same => stops (same ▸ rfl)
    · exact LineState.noConfusion
  five rest := takeBasicLines.eq_9 _ rest LineState.noConfusion
  lone rest apart := by
    rw [takeBasicLines.eq_18]
    · rfl
    all_goals simp_all

theorem closedBy_literalLines : ClosedBy '\'' takeLiteralLines where
  three rest stops := by
    rw [takeLiteralLines.eq_4] <;> exact fun after same => stops (same ▸ rfl)
  four rest stops := by
    rw [takeLiteralLines.eq_3]
    exact fun after same => stops (same ▸ rfl)
  five rest := takeLiteralLines.eq_2 rest
  lone rest apart := by
    rw [takeLiteralLines.eq_6]
    · rfl
    all_goals simp_all

theorem le_longestRun (mark : Char) (run : Nat) (text : List Char) :
    run ≤ longestRun mark run text := by
  induction text generalizing run with
  | nil => exact Nat.le_refl run
  | cons c more ih =>
      rw [longestRun]
      split
      · exact Nat.le_of_succ_le (ih (run + 1))
      · exact Nat.le_max_left _ _

theorem longestRun_pos {mark : Char} {text : List Char} (member : mark ∈ text) (run : Nat) :
    0 < longestRun mark run text := by
  induction text generalizing run with
  | nil => cases member
  | cons c more ih =>
      rw [longestRun]
      by_cases here : c = mark
      · rw [if_pos here]
        exact Nat.lt_of_lt_of_le (Nat.succ_pos run) (le_longestRun mark (run + 1) more)
      · rw [if_neg here]
        have later := ih ((List.mem_cons.1 member).resolve_left (Ne.symm here)) 0
        omega

theorem body_writeEscaped (text : List Char) {run : Nat} (within : run ≤ 2) :
    Body '"' (takeBasicLines .inside) run text (writeEscaped true run text) := by
  induction text generalizing run with
  | nil => exact .nil run
  | cons c more ih =>
      by_cases quote : c = '"'
      · rw [quote, writeEscaped]
        simp only [if_true]
        split
        · have escaped : Spelling '"' ['\\', '"'] := .short '"' rfl
          exact .other ⟨'\\', ['"'], rfl, by decide⟩ escaped.takeBasicLines_append
            (ih (Nat.zero_le 2))
        · exact .mark (by omega) (ih (by omega))
      · rw [writeEscaped_cons quote]
        by_cases newline : c = '\n'
        · have reads : ∀ rest, takeBasicLines .inside (['\n'] ++ rest) =
              Taken.add '\n' (takeBasicLines .inside rest) := fun rest => by
            rw [List.singleton_append, takeBasicLines.eq_18] <;> simp
          rw [newline]
          exact .other ⟨'\n', [], rfl, by decide⟩ reads (ih (Nat.zero_le 2))
        · have spelled : Spelling c (writeChar true c) := spelling_writeChar quote (.inr newline)
          obtain ⟨first, rest, starts, apart, _⟩ := spelled.starts
          exact .other ⟨first, rest, starts, apart⟩ spelled.takeBasicLines_append
            (ih (Nat.zero_le 2))

theorem body_literal {text : List Char} (plain : ∀ c ∈ text, c = '\n' ∨ isPlain c = true)
    {run : Nat} (runs : longestRun '\'' run text ≤ 2) :
    Body '\'' takeLiteralLines run text text := by
  induction text generalizing run with
  | nil => exact .nil run
  | cons c more ih =>
      have ⟨visible, others⟩ := List.forall_mem_cons.1 plain
      rw [longestRun] at runs
      by_cases mark : c = '\''
      · rw [if_pos mark] at runs
        have least := le_longestRun '\'' (run + 1) more
        rw [mark]
        exact .mark (by omega) (ih others runs)
      · rw [if_neg mark] at runs
        have proper : c ≠ '\r' := by
          rintro rfl
          revert visible
          decide
        have reads : ∀ rest, takeLiteralLines ([c] ++ rest) =
            Taken.add c (takeLiteralLines rest) := fun rest => by
          rw [List.singleton_append, takeLiteralLines.eq_6] <;> simp_all
        exact .other ⟨c, [], rfl, mark⟩ reads (ih others (by omega))

end Runs

section Style

variable {text : List Char}

theorem plain_of_escapes (escapes : text.any needsEscape = false) :
    ∀ c ∈ text, c = '\n' ∨ isPlain c = true := by
  intro c member
  have plain := List.any_eq_false.1 escapes c member
  by_cases control : isControl c = true
  · by_cases tab : c = '\t'
    · exact .inr (by rw [tab]; rfl)
    · exact .inl (by simpa [needsEscape, control, tab] using plain)
  · exact .inr (isPlain_of_not_isControl (Bool.eq_false_iff.2 control))

theorem style_literal (chosen : style text = .literal) :
    ∀ c ∈ text, isPlain c = true ∧ c ≠ '\'' := by
  have conditions : text.any needsEscape = false ∧ longestRun '\'' 0 text = 0 ∧ '\n' ∉ text := by
    unfold style at chosen
    grind
  obtain ⟨escapes, apostrophes, newline⟩ := conditions
  intro c member
  constructor
  · refine (plain_of_escapes escapes c member).resolve_left ?_
    rintro rfl
    exact newline member
  · rintro rfl
    exact absurd apostrophes (Nat.ne_of_gt (longestRun_pos member 0))

theorem style_literalLines (chosen : style text = .literalLines) :
    text.any needsEscape = false ∧ longestRun '\'' 0 text ≤ 2 := by
  unfold style at chosen
  grind

theorem skipFirstBreak_firstBreak {body : List Char}
    (starts : '\n' ∉ text → ∃ first more, body = first :: more ∧ first ≠ '\n' ∧ first ≠ '\r') :
    skipFirstBreak (firstBreak text ++ body) = body := by
  by_cases newline : '\n' ∈ text
  · rw [firstBreak, if_pos (List.contains_iff_mem.2 newline)]
    rfl
  · obtain ⟨first, more, rfl, feed, carriage⟩ := starts newline
    rw [firstBreak, if_neg (mt List.contains_iff_mem.1 newline), List.nil_append,
      skipFirstBreak.eq_3] <;> simp [feed, carriage]

end Style

section Write

variable {rest : List Char}

theorem takeQuoted_basic (text : List Char) (stops : rest.head? ≠ some '"') :
    takeQuoted ('"' :: (writeEscaped false 0 text ++ '"' :: rest)) = some (text, rest) := by
  rw [takeQuoted.eq_2]
  · exact takeBasic_writeEscaped 0 text rest
  · intro after same
    cases text with
    | nil =>
        cases same
        exact stops rfl
    | cons c more =>
        obtain ⟨first, tail, starts, mark, _⟩ := writeEscaped_starts (.inl rfl) 0 more (c := c)
        rw [starts] at same
        exact mark rfl (List.cons.inj same).1

theorem takeQuoted_literal {text : List Char} (plain : ∀ c ∈ text, isPlain c = true ∧ c ≠ '\'')
    (stops : rest.head? ≠ some '\'') :
    takeQuoted ('\'' :: (text ++ '\'' :: rest)) = some (text, rest) := by
  rw [takeQuoted.eq_4]
  · exact takeLiteral_append plain rest
  · intro after same
    cases text with
    | nil =>
        cases same
        exact stops rfl
    | cons c more => exact (plain c (List.mem_cons_self ..)).2 (List.cons.inj same).1

theorem takeQuoted_basicLines (text : List Char) (stops : rest.head? ≠ some '"') :
    takeQuoted ("\"\"\"".toList ++ firstBreak text ++ writeEscaped true 0 text ++
      '"' :: '"' :: '"' :: rest) = some (text, rest) := by
  change takeQuoted ('"' :: '"' :: '"' :: (firstBreak text ++ writeEscaped true 0 text ++ _)) = _
  rw [takeQuoted.eq_1, List.append_assoc, skipFirstBreak_firstBreak]
  · exact (body_writeEscaped text (Nat.zero_le 2)).take_append closedBy_basicLines stops
  · intro newline
    cases text with
    | nil => exact ⟨_, _, rfl, by decide⟩
    | cons c more =>
        have other : c ≠ '\n' := fun same => newline (same ▸ List.mem_cons_self ..)
        obtain ⟨first, tail, starts, _, apart⟩ := writeEscaped_starts (.inr other) 0 more
        rw [starts]
        exact ⟨first, _, rfl, apart⟩

theorem takeQuoted_literalLines {text : List Char} (escapes : text.any needsEscape = false)
    (runs : longestRun '\'' 0 text ≤ 2) (stops : rest.head? ≠ some '\'') :
    takeQuoted ("'''".toList ++ firstBreak text ++ text ++ '\'' :: '\'' :: '\'' :: rest) =
      some (text, rest) := by
  have plain := plain_of_escapes escapes
  change takeQuoted ('\'' :: '\'' :: '\'' :: (firstBreak text ++ text ++ _)) = _
  rw [takeQuoted.eq_3, List.append_assoc, skipFirstBreak_firstBreak]
  · exact (body_literal plain runs).take_append closedBy_literalLines stops
  · intro newline
    cases text with
    | nil => exact ⟨_, _, rfl, by decide⟩
    | cons c more =>
        have other : c ≠ '\n' := fun same => newline (same ▸ List.mem_cons_self ..)
        have visible := (plain c (List.mem_cons_self ..)).resolve_left other
        refine ⟨c, _, rfl, other, ?_⟩
        rintro rfl
        cases visible

theorem takeQuoted_writeText (text : List Char)
    (stops : rest.head? ≠ some '"' ∧ rest.head? ≠ some '\'') :
    takeQuoted (writeText text ++ rest) = some (text, rest) := by
  unfold writeText
  split
  · simpa using takeQuoted_basic text stops.1
  · rename_i chosen
    simpa using takeQuoted_literal (style_literal chosen) stops.2
  · simpa using takeQuoted_basicLines text stops.1
  · rename_i chosen
    have ⟨escapes, runs⟩ := style_literalLines chosen
    simpa using takeQuoted_literalLines escapes runs stops.2

end Write

end LineLedger.Toml
