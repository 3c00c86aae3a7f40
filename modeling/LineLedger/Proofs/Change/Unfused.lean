import LineLedger.Proofs.Change.Overlay

set_option autoImplicit false

namespace LineLedger

namespace Text

theorem ended_of_mem_dropLast_lines {text line : String} (member : line ∈ (lines text).dropLast) :
    endsLine line.toList = true ∧ lineCount line = 1 := by
  rw [lines, ← List.map_dropLast] at member
  obtain ⟨found, listed, same⟩ := List.mem_map.1 member
  have isLine := isLine_of_mem (List.dropLast_subset _ listed)
  rw [← same, lineCount, lines, String.toList_ofList, isLine.single]
  exact ⟨endsLine_of_mem_dropLast listed, rfl⟩

theorem ended_of_mem_terminateLast_lines {text line : String}
    (member : line ∈ terminateLast (lines text)) :
    endsLine line.toList = true ∧ lineCount line = 1 := by
  by_cases none : lines text = []
  · rw [none] at member
    cases member
  · rw [← List.dropLast_concat_getLast none, terminateLast_concat, List.mem_append,
      List.mem_singleton] at member
    rcases member with before | last
    · exact ended_of_mem_dropLast_lines before
    · rw [last, lineCount, lines_terminated (lines_of_mem_lines (List.getLast_mem none))]
      exact ⟨endsLine_terminated _, rfl⟩

theorem ne_empty_of_endsLine {text : String} (ended : endsLine text.toList = true) : text ≠ "" := by
  rintro rfl
  cases ended

end Text

theorem mem_terminateLast {lines : List String} {line : String}
    (member : line ∈ terminateLast lines) :
    line ∈ lines.dropLast ∨ ∃ last, lines.getLast? = some last ∧ line = Text.terminated last := by
  by_cases none : lines = []
  · rw [none] at member
    cases member
  · rw [← List.dropLast_concat_getLast none, terminateLast_concat, List.mem_append,
      List.mem_singleton] at member
    exact member.imp_right fun last => ⟨_, List.getLast?_eq_some_getLast none, last⟩

structure Unfused (text : String) (entries : List String) : Prop where
  inhabited : ∀ entry ∈ entries, entry ≠ ""
  ended : ∀ place entry, entries[place]? = some entry →
    Text.endsLine entry.toList = true ∨
      place + 1 = entries.length ∧ (Text.lines text).getLast? = some entry

namespace Unfused

variable {text : String} {entries : List String}

theorem lines (text : String) : Unfused text (Text.lines text) where
  inhabited _ member := Text.ne_empty_of_mem_lines member
  ended place entry found := by
    by_cases last : place + 1 = (Text.lines text).length
    · refine .inr ⟨last, ?_⟩
      rw [List.getLast?_eq_getElem?, ← last]
      exact found
    · have within := (List.getElem?_eq_some_iff.1 found).1
      have before : (Text.lines text).dropLast[place]? = some entry := by
        rw [List.getElem?_dropLast, if_pos (by omega), found]
      exact .inl (Text.ended_of_mem_dropLast_lines (List.mem_of_getElem? before)).1

theorem ended_of_mem_dropLast (unfused : Unfused text entries) {entry : String}
    (member : entry ∈ entries.dropLast) : Text.endsLine entry.toList = true := by
  obtain ⟨place, found⟩ := List.mem_iff_getElem?.1 member
  have within := (List.getElem?_eq_some_iff.1 found).1
  rw [List.length_dropLast] at within
  rw [List.getElem?_dropLast, if_pos within] at found
  exact (unfused.ended place entry found).resolve_right fun last => by omega

theorem ended_of_mem_terminateLast (unfused : Unfused text entries) {entry : String}
    (member : entry ∈ terminateLast entries) : Text.endsLine entry.toList = true := by
  rcases mem_terminateLast member with before | ⟨last, _, same⟩
  · exact unfused.ended_of_mem_dropLast before
  · rw [same]
    exact Text.endsLine_terminated last

section Steps

variable {put : String}

theorem set (unfused : Unfused text entries) (place : Nat)
    (ended : Text.endsLine put.toList = true) : Unfused text (entries.set place put) where
  inhabited entry member := by
    rcases List.mem_or_eq_of_mem_set member with old | new
    · exact unfused.inhabited entry old
    · exact new ▸ Text.ne_empty_of_endsLine ended
  ended other entry found := by
    rw [List.getElem?_set] at found
    rw [List.length_set]
    split at found
    · split at found
      · cases found
        exact .inl ended
      · cases found
    · exact unfused.ended other entry found

theorem insertIdx (unfused : Unfused text entries) {place : Nat} (within : place < entries.length)
    (ended : Text.endsLine put.toList = true) : Unfused text (entries.insertIdx place put) where
  inhabited entry member := by
    rcases (List.mem_insertIdx (Nat.le_of_lt within)).1 member with new | old
    · exact new ▸ Text.ne_empty_of_endsLine ended
    · exact unfused.inhabited entry old
  ended other entry found := by
    rw [List.getElem?_insertIdx] at found
    rw [List.length_insertIdx, if_pos (Nat.le_of_lt within)]
    split at found
    · -- An entry above the insertion was not the last one before either.
      exact .inl ((unfused.ended other entry found).resolve_right fun last => by omega)
    · split at found
      · split at found
        · cases found
          exact .inl ended
        · cases found
      · refine (unfused.ended (other - 1) entry found).imp_right fun last => ⟨?_, last.2⟩
        omega

theorem append (unfused : Unfused text entries) (ended : Text.endsLine put.toList = true) :
    Unfused text (terminateLast entries ++ [put]) := by
  have all : ∀ entry ∈ terminateLast entries ++ [put], Text.endsLine entry.toList = true := by
    intro entry member
    rcases List.mem_append.1 member with old | new
    · exact unfused.ended_of_mem_terminateLast old
    · exact List.mem_singleton.1 new ▸ ended
  exact ⟨fun entry member => Text.ne_empty_of_endsLine (all entry member),
    fun _ entry found => .inl (all entry (List.mem_of_getElem? found))⟩

theorem applyTo (unfused : Unfused text entries) {c : Change} (ended : c.Ended) :
    Unfused text (c.applyTo entries) := by
  have replaced := Change.endsLine_replacement ended
  rw [Change.applyTo]
  split
  · rename_i within
    split
    · exact unfused.insertIdx within replaced
    · exact unfused.set c.line replaced
    · exact unfused.set c.line replaced
  · split
    · exact unfused
    · exact unfused.append replaced
    · exact unfused.append replaced

end Steps

theorem lines_join (unfused : Unfused text entries) :
    Text.lines (String.join entries) = entries.flatMap Text.lines :=
  Text.lines_join fun _ member => unfused.ended_of_mem_dropLast member

end Unfused

namespace Change

variable {changes : List Change} {text : String}

theorem unfused_applyAll (ended : ∀ c ∈ changes, c.Ended) {entries : List String}
    (unfused : Unfused text entries) : Unfused text (changes.foldl applyTo entries) := by
  induction changes generalizing entries with
  | nil => exact unfused
  | cons c rest ih =>
      have ⟨here, later⟩ := List.forall_mem_cons.1 ended
      exact ih later (unfused.applyTo here)

theorem mem_applyTo {c : Change} {entries : List String} {entry : String}
    (member : entry ∈ c.applyTo entries) :
    entry = c.replacement ∨ entry ∈ entries ∨ entry ∈ terminateLast entries := by
  rw [applyTo] at member
  split at member
  · rename_i within
    split at member
    · exact ((List.mem_insertIdx (Nat.le_of_lt within)).1 member).imp_right .inl
    · exact (List.mem_or_eq_of_mem_set member).symm.imp_right .inl
    · exact (List.mem_or_eq_of_mem_set member).symm.imp_right .inl
  · split at member
    · exact .inr (.inl member)
    · exact (List.mem_append.1 member).symm.imp List.mem_singleton.1 .inr
    · exact (List.mem_append.1 member).symm.imp List.mem_singleton.1 .inr

theorem single_terminateLast {entries : List String}
    (single : ∀ entry ∈ entries, Text.lines entry = [entry]) :
    ∀ entry ∈ terminateLast entries, Text.lines entry = [entry] := by
  intro entry member
  rcases mem_terminateLast member with before | ⟨last, found, same⟩
  · exact single entry (List.dropLast_subset _ before)
  · rw [same]
    exact Text.lines_terminated (single last (List.mem_of_getLast? found))

theorem single_applyAll {entries : List String}
    (replaced : ∀ c ∈ changes, Text.lines c.replacement = [c.replacement])
    (single : ∀ entry ∈ entries, Text.lines entry = [entry]) :
    ∀ entry ∈ changes.foldl applyTo entries, Text.lines entry = [entry] := by
  induction changes generalizing entries with
  | nil => exact single
  | cons c rest ih =>
      have ⟨here, later⟩ := List.forall_mem_cons.1 replaced
      refine ih later fun entry member => ?_
      rcases mem_applyTo member with new | old | terminated
      · rw [new, here]
      · exact single entry old
      · exact single_terminateLast single entry terminated

end Change

namespace ChangeSet

variable {set : ChangeSet} {text : String}

theorem mem_ground {lines : List String} {line : String} (member : line ∈ set.ground lines) :
    line ∈ lines ∨ line ∈ terminateLast lines := by
  rw [ground] at member
  split at member
  · exact .inr member
  · exact .inl member

theorem Orderly.value_overlay (orderly : set.Orderly) {lines : List String} {line : Nat}
    {entry : String} (found : (set.overlay lines).get? line = some entry) :
    (∃ c ∈ set.toList, c.line = line ∧ entry = c.replacement) ∨
      set.get? line = none ∧ (set.ground lines)[line]? = some entry := by
  rw [orderly.get?_overlay] at found
  cases changed : set.get? line with
  | some c =>
      rw [changed] at found
      cases found
      have here := orderly.placed line c changed
      exact .inl ⟨c, (orderly.mem_toList c).2 (by rwa [here]), here, rfl⟩
  | none =>
      rw [changed] at found
      exact .inr ⟨rfl, found⟩

-- An entry without a line feed is the last line of the text, and it is untouched: no change names
-- it, and none goes past it.
theorem Orderly.ended_of_overlay (orderly : set.Orderly) {line : Nat} {entry : String}
    (found : (set.overlay (Text.lines text)).get? line = some entry) :
    Text.endsLine entry.toList = true ∨
      (Text.lines text).getLast? = some entry ∧ set.get? line = none ∧
        ∀ other, ((set.overlay (Text.lines text)).get? other).isSome = true → other ≤ line := by
  rcases orderly.value_overlay found with ⟨c, member, _, same⟩ | ⟨untouched, kept⟩
  · rw [same]
    exact .inl (Change.endsLine_replacement (orderly.ended_of_mem member))
  · by_cases past : ∃ c ∈ set.toList, (Text.lines text).length ≤ c.line
    · rw [ground, if_pos ((orderly.reachesPast_iff _).2 past)] at kept
      exact .inl (Text.ended_of_mem_terminateLast_lines (List.mem_of_getElem? kept)).1
    · rw [ground, if_neg (mt (orderly.reachesPast_iff _).1 past)] at kept
      rcases (Unfused.lines text).ended line entry kept with ended | ⟨last, same⟩
      · exact .inl ended
      · refine .inr ⟨same, untouched, fun other shown => ?_⟩
        obtain ⟨value, there⟩ := Option.isSome_iff_exists.1 shown
        rcases orderly.value_overlay there with ⟨c, member, here, _⟩ | ⟨_, present⟩
        · have within : c.line < (Text.lines text).length :=
            Nat.lt_of_not_le fun beyond => past ⟨c, member, beyond⟩
          omega
        · have within := (List.getElem?_eq_some_iff.1 present).1
          rw [length_ground] at within
          omega

theorem Orderly.unfused_overlay (orderly : set.Orderly) (text : String) :
    Unfused text (set.overlay (Text.lines text)).values where
  inhabited entry member := by
    obtain ⟨line, found⟩ := (Table.mem_values_iff _ _).1 member
    rcases orderly.ended_of_overlay found with ended | ⟨last, _⟩
    · exact Text.ne_empty_of_endsLine ended
    · exact Text.ne_empty_of_mem_lines (List.mem_of_getLast? last)
  ended place entry found := by
    rw [Table.values, List.getElem?_map] at found
    obtain ⟨⟨line, value⟩, here, rfl⟩ := Option.map_eq_some_iff.1 found
    have shown := (Table.get?_eq_some_iff _ _ _).2 (List.mem_of_getElem? here)
    rcases orderly.ended_of_overlay shown with ended | ⟨last, _, most⟩
    · exact .inl ended
    · refine .inr ⟨?_, last⟩
      -- An entry below would stand under a greater line.
      rw [Table.values, List.length_map]
      obtain ⟨within, same⟩ := List.getElem?_eq_some_iff.1 here
      apply Nat.le_antisymm within
      apply Nat.le_of_not_lt
      intro (further : place + 1 < (set.overlay (Text.lines text)).entries.length)
      have below := List.pairwise_iff_getElem.1 (set.overlay (Text.lines text)).ascending place
        (place + 1) within further (Nat.lt_succ_self place)
      rw [same, Nat.compare_eq_lt] at below
      have listed := (Table.get?_eq_some_iff (set.overlay (Text.lines text)) _ _).2
        (List.getElem_mem further)
      exact absurd (most _ (Option.isSome_iff_exists.2 ⟨_, listed⟩)) (Nat.not_le.2 below)

theorem Orderly.single_overlay (orderly : set.Orderly)
    (replaced : ∀ c ∈ set.toList, Text.lines c.replacement = [c.replacement]) (text : String) :
    ∀ entry ∈ (set.overlay (Text.lines text)).values, Text.lines entry = [entry] := by
  intro entry member
  obtain ⟨line, found⟩ := (Table.mem_values_iff _ _).1 member
  have single : ∀ line ∈ Text.lines text, Text.lines line = [line] :=
    fun line listed => Text.lines_of_mem_lines listed
  rcases orderly.value_overlay found with ⟨c, listed, _, same⟩ | ⟨_, kept⟩
  · rw [same, replaced c listed]
  · rcases mem_ground (List.mem_of_getElem? kept) with line | terminated
    · exact single entry line
    · exact Change.single_terminateLast single entry terminated

def OneLine (set : ChangeSet) : Prop :=
  ∀ c ∈ set.toList, '\n' ∉ c.replacement.toList.dropLast

instance (set : ChangeSet) : Decidable set.OneLine :=
  inferInstanceAs (Decidable (∀ c ∈ set.toList, _))

theorem Orderly.lines_replacement (orderly : set.Orderly) (oneLine : set.OneLine) :
    ∀ c ∈ set.toList, Text.lines c.replacement = [c.replacement] := fun c member =>
  Text.lines_of_endsLine (Change.endsLine_replacement (orderly.ended_of_mem member))
    (oneLine c member)

theorem unfused_entries {set : ChangeSet} (recorded : set.Recorded) (text : String) :
    (∀ entries ∈ [set.apply (Text.lines text), (set.overlay (Text.lines text)).values],
      Unfused text entries ∧ Text.lines (String.join entries) = entries.flatMap Text.lines ∧
        (set.OneLine → Text.lines (String.join entries) = entries)) ∧
    ∀ line entry, (set.overlay (Text.lines text)).get? line = some entry →
      Text.endsLine entry.toList = false → set.get? line = none := by
  have orderly := set.recorded_iff_orderly.1 recorded
  have ended : ∀ c ∈ set.toList, c.Ended := fun c member => orderly.ended_of_mem member
  have unfused : ∀ entries ∈ [set.apply (Text.lines text), (set.overlay (Text.lines text)).values],
      Unfused text entries := by
    rw [List.forall_mem_cons, List.forall_mem_singleton]
    exact ⟨Change.unfused_applyAll ended (Unfused.lines text), orderly.unfused_overlay text⟩
  constructor
  · intro entries member
    have joined := (unfused entries member).lines_join
    refine ⟨unfused entries member, joined, fun oneLine => ?_⟩
    have replaced : ∀ c ∈ set.toList, Text.lines c.replacement = [c.replacement] := fun c listed =>
      Text.lines_of_endsLine (Change.endsLine_replacement (ended c listed)) (oneLine c listed)
    have single : ∀ entry ∈ entries, Text.lines entry = [entry] := by
      rw [List.mem_cons, List.mem_singleton] at member
      rcases member with rfl | rfl
      · exact Change.single_applyAll replaced fun line listed => Text.lines_of_mem_lines listed
      · exact orderly.single_overlay replaced text
    calc Text.lines (String.join entries)
      _ = (entries.map Text.lines).flatten := joined
      _ = (entries.map fun entry => [entry]).flatten := by rw [List.map_congr_left single]
      _ = entries := List.flatMap_singleton' entries
  · intro line entry found unended
    rcases orderly.ended_of_overlay found with ended | ⟨_, untouched, _⟩
    · rw [ended] at unended
      cases unended
    · exact untouched

-- An insertion moves the last line down, out of the reach of the deletion that named it.
theorem unfused_entries_moved :
    let changes : List Change := [.insertion 0 "zero", .deletion 1 none]
    let set := changes.foldl ChangeSet.record (.empty ⟨"notes"⟩)
    set.Recorded ∧ set.OneLine ∧
    set.apply (Text.lines "one\ntwo") = ["zero\n", "\n", "two"] ∧
    Unfused "one\ntwo" ["zero\n", "\n", "two"] ∧
    Text.lines (String.join ["zero\n", "\n", "two"]) = ["zero\n", "\n", "two"] ∧
    (set.overlay (Text.lines "one\ntwo")).values = ["zero\n", "\n"] := by
  intro changes set
  have recorded : set.Recorded := by
    refine ⟨changes, fun c member => ?_, rfl⟩
    simp only [changes, List.mem_cons, List.not_mem_nil, or_false] at member
    rcases member with rfl | rfl <;> exact ⟨_, _, _, _, rfl⟩
  have oneLine : set.OneLine := by decide
  have entries := unfused_entries recorded "one\ntwo"
  obtain ⟨unfused, _, joined⟩ := entries.1 _ (List.mem_cons_self ..)
  exact ⟨recorded, oneLine, rfl, unfused, joined oneLine, rfl⟩

end ChangeSet

end LineLedger
