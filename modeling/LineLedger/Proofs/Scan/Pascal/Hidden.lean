import LineLedger.Proofs.Scan
import LineLedger.Proofs.Scan.Reader
import LineLedger.Proofs.Text.Word
import LineLedger.Python.Parse

set_option autoImplicit false

namespace LineLedger.Pascal

structure Spot where
  comments : Comments
  quoted : Bool
deriving DecidableEq, Repr

def Spot.move? : Spot → Char → List Char → Option (Move Spot)
  | ⟨⟨true, paren⟩, quoted⟩, c, _ => some ⟨[], ⟨⟨c ≠ '}', paren⟩, quoted⟩, 0⟩
  | ⟨⟨false, true⟩, quoted⟩, '*', ')' :: _ => some ⟨[], ⟨.none, quoted⟩, 1⟩
  | ⟨⟨false, true⟩, quoted⟩, _, _ => some ⟨[], ⟨⟨false, true⟩, quoted⟩, 0⟩
  | ⟨⟨false, false⟩, quoted⟩, '\'', _ => some ⟨[], ⟨.none, !quoted⟩, 0⟩
  | ⟨⟨false, false⟩, true⟩, _, _ => some ⟨[], ⟨.none, true⟩, 0⟩
  | ⟨⟨false, false⟩, false⟩, '{', _ => some ⟨[], ⟨⟨true, false⟩, false⟩, 0⟩
  | ⟨⟨false, false⟩, false⟩, '(', '*' :: _ => some ⟨[], ⟨⟨false, true⟩, false⟩, 1⟩
  | ⟨⟨false, false⟩, false⟩, '/', '/' :: _ => none
  | ⟨⟨false, false⟩, false⟩, c, _ => some ⟨[c], ⟨.none, false⟩, 0⟩

section Moves

variable {quoted : Bool} {c : Char} {rest : List Char}

theorem move?_paren (inside : ∀ more, c = '*' → rest = ')' :: more → False) :
    Spot.move? ⟨⟨false, true⟩, quoted⟩ c rest = some ⟨[], ⟨⟨false, true⟩, quoted⟩, 0⟩ := by
  rw [Spot.move?]
  exact inside

theorem move?_quoted (inside : c ≠ '\'') :
    Spot.move? ⟨⟨false, false⟩, true⟩ c rest = some ⟨[], ⟨.none, true⟩, 0⟩ := by
  rw [Spot.move?]
  exact inside

theorem move?_code (quote : c ≠ '\'') (brace : c ≠ '{')
    (paren : ∀ more, c = '(' → rest = '*' :: more → False)
    (slashes : ∀ more, c = '/' → rest = '/' :: more → False) :
    Spot.move? ⟨⟨false, false⟩, false⟩ c rest = some ⟨[c], ⟨.none, false⟩, 0⟩ := by
  rw [Spot.move?]
  · exact quote
  · exact brace
  · exact paren
  · exact slashes

end Moves

def spots : Reader Spot where
  move? := Spot.move?
  carry spot := ⟨spot.comments, false⟩

theorem strip_eq_read (comments : Comments) (quoted : Bool) (line : List Char) :
    strip comments quoted line =
      ((spots.read ⟨comments, quoted⟩ line).1 ++ [' '],
        (spots.read ⟨comments, quoted⟩ line).2.comments) := by
  have moves {spot : Spot} {c : Char} {rest : List Char} {move : Move Spot}
      (same : spot.move? c rest = some move) := spots.read_move same
  fun_induction strip comments quoted line with
  | case1 comments quoted => rw [Reader.read_nil]; rfl
  | case2 paren quoted c rest ih | case3 quoted rest ih | case5 quoted rest ih | case7 rest ih
  | case8 rest ih => rw [moves rfl, ih]; rfl
  | case4 quoted c rest inside ih => rw [moves (move?_paren inside), ih]; rfl
  | case6 c rest inside ih => rw [moves (move?_quoted inside), ih]; rfl
  | case9 tail => rw [Reader.read_stop rfl]; rfl
  | case10 c rest quote brace paren slashes code comments stripped ih =>
    rw [moves (move?_code quote brace paren slashes)]
    rw [stripped] at ih
    cases ih
    rfl

-- A hidden character that ends something, or may end it with the one beside it.
def isGuard (c : Char) : Bool := ['\n', '\'', '\x7d', '*', ')'].contains c

-- Which characters may stand at a spot in place of each other: all but the guards where the text is
-- hidden, and none in code.
def Spot.allows (spot : Spot) (c d : Char) : Bool :=
  (spot.comments.brace || spot.comments.paren || spot.quoted) && !isGuard c && !isGuard d

section Follows

variable {spot : Spot} {c d : Char} {rest tail : List Char}

theorem allows_guard (guard : isGuard d = true) (c : Char) : spot.allows c d = false := by
  simp [Spot.allows, guard]

theorem guard_iff (here : d = c ∨ spot.allows c d = true) {e : Char} (guard : isGuard e = true) :
    d = e ↔ c = e := by
  rcases here with same | allowed
  · rw [same]
  · simp only [Spot.allows, Bool.and_eq_true, Bool.not_eq_true'] at allowed
    exact iff_of_false (fun same => by simp [same, guard] at allowed)
      fun same => by simp [same, guard] at allowed

theorem move?_eq_of_alike (alike : spots.Alike Spot.allows spot (c :: rest) (d :: tail)) :
    spot.move? d tail = spot.move? c rest := by
  obtain ⟨_, _, same, here⟩ := alike.cons
  cases same
  have ahead {move : Move Spot} (moves : spot.move? c rest = some move) := alike.take_eq moves
  have later {move : Move Spot} (moves : spot.move? c rest = some move) := alike.drop moves
  -- Guards are never exchanged, so two characters that close or open a comment in one line do so
  -- in the other.
  fun_cases Spot.move? spot c rest with
  | case1 paren quoted =>
    simp only [Spot.move?, ne_eq, guard_iff here (e := '\x7d') rfl]
  | case2 quoted more =>
    have taken : tail.take 1 = [')'] := ahead rfl
    rw [← List.take_append_drop 1 tail, taken, (guard_iff here rfl).2 rfl]
    rfl
  | case3 _ _ quoted inside =>
    refine move?_paren fun more first second => ?_
    have same : c = '*' := (guard_iff here rfl).1 first
    have after := later (move?_paren inside)
    rw [second] at after
    obtain ⟨others, split⟩ := after.starts (allows_guard rfl)
    exact inside others same split
  | case4 quoted => rw [(guard_iff here rfl).2 rfl, Spot.move?]
  | case5 _ _ inside => exact move?_quoted (mt (guard_iff here rfl).1 inside)
  | case6 =>
    have same : d = '\x7b' := by simpa [Spot.allows] using here
    rw [same, Spot.move?]
  | case7 more =>
    have same : d = '(' := by simpa [Spot.allows] using here
    have taken : tail.take 1 = ['*'] := ahead rfl
    rw [← List.take_append_drop 1 tail, taken, same]
    rfl
  | case8 more =>
    have same : d = '/' := by simpa [Spot.allows] using here
    rw [same, alike.stopped rfl]
    rfl
  | case9 _ _ quote brace paren slashes =>
    have same : d = c := by simpa [Spot.allows] using here
    have after := later (move?_code quote brace paren slashes)
    rw [same]
    refine move?_code quote brace (fun more first second => ?_) fun more first second => ?_
    · rw [second] at after
      obtain ⟨others, split⟩ := after.starts (allows_guard rfl)
      exact paren others first split
    · rw [second] at after
      obtain ⟨others, split⟩ := after.starts fun _ => rfl
      exact slashes others first split

theorem follows_alike : spots.Follows (spots.Alike Spot.allows) where
  ends alike := alike.nil
  moves alike := by
    obtain ⟨d, tail, rfl, _⟩ := alike.cons
    exact ⟨d, tail, rfl, move?_eq_of_alike alike, fun move moves => alike.drop moves⟩

theorem strip_eq_of_alike {comments : Comments} {line other : List Char}
    (alike : spots.Alike Spot.allows ⟨comments, false⟩ line other) :
    strip comments false other = strip comments false line := by
  rw [strip_eq_read, strip_eq_read, Reader.read_eq_of_like follows_alike alike]

end Follows

section Breaks

theorem ignoresBreaks : spots.IgnoresBreaks where
  ahead {spot c rest breaks} all := by
    change spot.move? c (rest ++ breaks) = spot.move? c rest
    fun_cases Spot.move? spot c rest with
    | case3 _ _ quoted inside =>
      refine move?_paren fun more first second => ?_
      obtain ⟨tail, split, _⟩ := Text.starts_of_append rfl all second
      exact inside tail first split
    | case5 _ _ inside => exact move?_quoted inside
    | case9 _ _ quote brace paren slashes =>
      refine move?_code quote brace (fun more first second => ?_) fun more first second => ?_
      · obtain ⟨tail, split, _⟩ := Text.starts_of_append rfl all second
        exact paren tail first split
      · obtain ⟨tail, split, _⟩ := Text.starts_of_append rfl all second
        exact slashes tail first split
    | case1 | case2 | case4 | case6 | case7 | case8 => rfl
  within {spot c rest move} moves := by
    change spot.move? c rest = some move at moves
    revert moves
    fun_cases Spot.move? spot c rest <;> rintro ⟨⟩ <;> simp
  alone {spot c rest} ends := by
    have apart {d : Char} (visible : Text.isBreak d = false) : c ≠ d := by
      rintro rfl
      rw [visible] at ends
      cases ends
    obtain ⟨⟨brace, paren⟩, quoted⟩ := spot
    cases brace with
    | true =>
      refine ⟨[], _, rfl, .inl rfl, ?_⟩
      simp [spots, apart (d := '\x7d') rfl]
    | false =>
      cases paren with
      | true =>
        exact ⟨[], _, move?_paren fun _ here _ => apart rfl here, .inl rfl, rfl⟩
      | false =>
        cases quoted with
        | true => exact ⟨[], _, move?_quoted (apart rfl), .inl rfl, rfl⟩
        | false =>
          exact ⟨[c], _, move?_code (apart rfl) (apart rfl) (fun _ here _ => apart rfl here)
            fun _ here _ => apart rfl here, .inr rfl, rfl⟩

theorem hasBecomes_append_blank {after : List Char} (blank : ∀ c ∈ after, Text.isBlank c = true)
    (code : List Char) : hasBecomes (code ++ after) = hasBecomes code := by
  have visible {c : Char} (member : c ∈ after) {d : Char} (visible : Text.isBlank d = false) :
      c ≠ d := by
    rintro rfl
    rw [blank c member] at visible
    cases visible
  induction code with
  | nil =>
    induction after with
    | nil => rfl
    | cons c rest ih =>
      have colon : c ≠ ':' := visible (List.mem_cons_self ..) rfl
      have later := ih (fun d member => blank d (List.mem_cons_of_mem _ member))
        fun member => visible (List.mem_cons_of_mem _ member)
      simp only [List.nil_append] at later ⊢
      simp [hasBecomes, colon, later]
  | cons c rest ih =>
    have ahead : ((rest ++ after).head? = some '=') ↔ rest.head? = some '=' := by
      cases rest with
      | nil =>
        refine ⟨fun equals => ?_, fun equals => nomatch equals⟩
        exact absurd rfl (visible (List.mem_of_head? equals) rfl)
      | cons d tail => rfl
    simp only [List.cons_append, hasBecomes, ih, ahead]

theorem classify_append_blank {after : List Char} (blank : ∀ c ∈ after, Text.isBlank c = true)
    (state : State) (code : List Char) : classify state (code ++ after) = classify state code := by
  have terminated : (code ++ after).contains ';' = code.contains ';' := by
    have absent : ';' ∉ after := fun member => nomatch blank _ member
    simp [absent]
  simp only [classify, terminated, hasBecomes_append_blank blank, words,
    Text.codeWords_append_blank blank]

theorem step_chomp (state : State) (line : List Char) :
    step state (Text.chomp line) = step state line := by
  obtain ⟨after, ended, code, carried⟩ :=
    Reader.read_chomp ignoresBreaks ⟨state.comments, false⟩ line
  have blank : ∀ c ∈ after, Text.isBlank c = true := fun c member =>
    Text.isBlank_of_isBreak (ended c member)
  have space : ∀ c ∈ [' '], Text.isBlank c = true := List.forall_mem_singleton.2 (by decide)
  have comments : (spots.read ⟨state.comments, false⟩ line).2.comments =
      (spots.read ⟨state.comments, false⟩ (Text.chomp line)).2.comments :=
    (Spot.mk.inj carried).1
  simp only [step, strip_eq_read, code, comments, classify_append_blank space,
    classify_append_blank blank]

end Breaks

theorem comments_step (state : State) (line : List Char) :
    (step state line).2.comments = (strip state.comments false line).2 := by
  simp only [step]
  fun_cases classify <;> rfl

theorem drives_alike :
    spots.Drives scanner (spots.Alike Spot.allows) fun state => ⟨state.comments, false⟩ where
  same alike := by simp only [scanner, step, strip_eq_of_alike alike]
  onward state line := by
    have carried : (scanner.step state line).2.comments = (strip state.comments false line).2 :=
      comments_step state line
    rw [carried, strip_eq_read]
    rfl
  chomps state line := by simp only [scanner, step_chomp]

section Single

def Comments.Single (comments : Comments) : Prop :=
  ¬ (comments.brace = true ∧ comments.paren = true)

theorem single_next {spot : Spot} {c : Char} {rest : List Char} {move : Move Spot}
    (single : spot.comments.Single) (moves : spots.move? spot c rest = some move) :
    move.next.comments.Single := by
  change spot.move? c rest = some move at moves
  revert moves
  fun_cases Spot.move? spot c rest with
  | case1 paren quoted =>
    rintro ⟨⟩
    exact fun both => single ⟨rfl, both.2⟩
  | case2 | case3 | case4 | case5 | case6 | case7 | case9 =>
    rintro ⟨⟩
    exact fun both => nomatch both
  | case8 => rintro ⟨⟩

theorem single_step (state : State) (line : List Char) (single : state.comments.Single) :
    (step state line).2.comments.Single := by
  rw [comments_step, strip_eq_read]
  exact Reader.read_invariant (P := fun spot : Spot => spot.comments.Single) single_next single line

theorem single_run (numbered : List (Nat × List Char)) :
    (scanner.run .start numbered).2.comments.Single := by
  have start : State.start.comments.Single := fun both => absurd both.1 (by decide)
  exact scanner.run_invariant (P := fun state : State => state.comments.Single) single_step start
    numbered

end Single

theorem strip_from_spot {comments : Comments} {line : List Char} {place : Nat} {spot : Spot}
    (comes : spots.stateAt? ⟨comments, false⟩ line place = some spot) :
    ∃ code, strip comments false line =
      (code ++ (strip spot.comments spot.quoted (line.drop place)).1,
        (strip spot.comments spot.quoted (line.drop place)).2) := by
  obtain ⟨code, onward⟩ := Reader.read_stateAt? comes
  rw [strip_eq_read, strip_eq_read, onward]
  exact ⟨code, by rw [List.append_assoc]⟩

theorem hidden_text_changes_no_tag [Python.Grammar] :
    (∀ source other : List Char,
      spots.AlikeLines (spots.Alike Spot.allows) ⟨.none, false⟩ (Text.splitLines source)
        (Text.splitLines other) →
      (Language.pascal.marks other).map (fun m => (m.line, m.tag)) =
        (Language.pascal.marks source).map fun m => (m.line, m.tag)) ∧
    ∀ (numbered : List (Nat × List Char)) (line : List Char) (place : Nat) (spot : Spot),
      spots.stateAt? ⟨(scanner.run .start numbered).2.comments, false⟩ line place = some spot →
      (∃ code, strip (scanner.run .start numbered).2.comments false line =
        (code ++ (strip spot.comments spot.quoted (line.drop place)).1,
          (strip spot.comments spot.quoted (line.drop place)).2)) ∧
      ¬ (spot.comments.brace = true ∧ spot.comments.paren = true) := by
  refine ⟨fun source other alike => drives_alike.scan_eq alike, ?_⟩
  intro numbered line place spot comes
  refine ⟨strip_from_spot comes, ?_⟩
  exact Reader.stateAt?_invariant (P := fun spot : Spot => spot.comments.Single) single_next comes
    (single_run numbered)

def remarked : String :=
  "begin \x7b if\nend; \x7d s := 'x := (*' + (* end\n \x7b *) 'it\'\'s'; (* ' *)\nend. // begin\n"

def reremarked : String :=
  "begin \x7b \x7b;\nun(; \x7d s := '; end\x7b*' + (* =:=\n / *) 'at\'\'\x7b'; (* ' *)\nend. // begin\n"

theorem hidden_text_changes_no_tag_remarked :
    (spots.AlikeLines (spots.Alike Spot.allows) ⟨.none, false⟩ (Text.splitLines remarked.toList)
      (Text.splitLines reremarked.toList) ∧
    (Language.pascal.marks reremarked.toList).map (fun m => (m.line, m.tag)) =
      [(1, some "block_start(1)"), (2, some "multiline_assignment_start(1)"),
        (3, some "multiline_assignment_end(1)"), (4, some "block_end(0)")]) ∧
    spots.stateAt? ⟨(scanner.run .start [(1, "begin \x7b if".toList)]).2.comments, false⟩
      "end; \x7d s := (* if".toList 15 = some ⟨⟨false, true⟩, false⟩ ∧
    ¬ (false = true ∧ true = true) := by
  have alike : spots.AlikeLines (spots.Alike Spot.allows) ⟨.none, false⟩
      (Text.splitLines remarked.toList) (Text.splitLines reremarked.toList) := by decide +kernel
  have tags : (Language.pascal.marks remarked.toList).map (fun m => (m.line, m.tag)) =
      [(1, some "block_start(1)"), (2, some "multiline_assignment_start(1)"),
        (3, some "multiline_assignment_end(1)"), (4, some "block_end(0)")] := by
    decide +kernel
  have comes :
      spots.stateAt? ⟨(scanner.run .start [(1, "begin \x7b if".toList)]).2.comments, false⟩
        "end; \x7d s := (* if".toList 15 = some ⟨⟨false, true⟩, false⟩ := by decide +kernel
  exact ⟨⟨alike, (hidden_text_changes_no_tag.1 _ _ alike).trans tags⟩, comes,
    (hidden_text_changes_no_tag.2 _ _ _ _ comes).2⟩

end LineLedger.Pascal
