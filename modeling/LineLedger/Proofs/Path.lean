import LineLedger.Proofs.Disk

set_option autoImplicit false

namespace LineLedger

namespace Path

theorem pieces_of_free {text : List Char} (free : '/' ∉ text) : pieces text = [text] := by
  induction text with
  | nil => rfl
  | cons c rest ih =>
    rw [List.mem_cons, not_or] at free
    rw [pieces, if_neg (Ne.symm free.1), ih free.2]

def relativeRoute : List String → Route
  | "." :: rest => .current :: plainRoute rest
  | segments => plainRoute segments

theorem plainRoute_append (front back : List String) :
    plainRoute (front ++ back) = plainRoute front ++ plainRoute back := by
  rw [plainRoute, List.filter_append, List.map_append, plainRoute, plainRoute]

theorem relativeRoute_append {front : List String} (inhabited : front ≠ []) (back : List String) :
    relativeRoute (front ++ back) = relativeRoute front ++ plainRoute back := by
  obtain ⟨first, more, rfl⟩ := List.exists_cons_of_ne_nil inhabited
  rw [List.cons_append]
  by_cases dot : first = "."
  · subst dot
    rw [relativeRoute, relativeRoute, plainRoute_append, List.cons_append]
  · have other : ∀ rest, first :: more = "." :: rest → False := fun _ same =>
      dot (List.cons.inj same).1
    have other' : ∀ rest, first :: (more ++ back) = "." :: rest → False := fun _ same =>
      dot (List.cons.inj same).1
    rw [relativeRoute, relativeRoute, ← List.cons_append, plainRoute_append]
    · exact other
    · exact other'

theorem route_eq (p : Path) : p.route =
    if p.isAbsolute then .root :: plainRoute p.segments else relativeRoute p.segments := by
  rw [route]
  rfl

section JoinName

variable {base : Path} {name : String} (filled : base.text ≠ "") (proper : IsName name)

include proper

theorem joinName_eq : base.joinName name =
    if base.text.isEmpty || base.text.toList.getLast? = some '/' then ⟨base.text ++ name⟩
    else ⟨base.text ++ "/" ++ name⟩ := by
  have relative : ¬ (⟨name⟩ : Path).isAbsolute = true := by
    rw [isAbsolute, decide_eq_true_iff]
    exact fun slash => proper.2.2.2 (List.mem_of_head? slash)
  rw [joinName, join, if_neg relative]

theorem text_joinName (base : Path) : ∃ more, (base.joinName name).text = base.text ++ more := by
  rw [joinName_eq proper]
  split
  · exact ⟨name, rfl⟩
  · exact ⟨"/" ++ name, String.append_assoc⟩

theorem filled_joinName (base : Path) : (base.joinName name).text ≠ "" := by
  rw [joinName_eq proper]
  split <;> simp [proper.1]

include filled

theorem isAbsolute_joinName : (base.joinName name).isAbsolute = base.isAbsolute := by
  obtain ⟨more, same⟩ := text_joinName proper base
  have inhabited : base.text.toList ≠ [] := by simpa using filled
  obtain ⟨c, rest, text⟩ := List.exists_cons_of_ne_nil inhabited
  rw [isAbsolute, isAbsolute, same, String.toList_append, text]
  rfl

-- Only a slash at its end makes the path a segment longer than what the name is joined to.
theorem segments_joinName : ∃ front, front ≠ [] ∧
    (base.segments = front ∨ base.segments = front ++ [""]) ∧
    (base.joinName name).segments = front ++ [name] := by
  rw [joinName_eq proper]
  have last : pieces name.toList = [name.toList] := pieces_of_free proper.2.2.2
  have nonempty : base.text.isEmpty = false := by simpa using filled
  split
  · rename_i ends
    have slash : base.text.toList.getLast? = some '/' := by simpa [nonempty] using ends
    obtain ⟨before, text⟩ := List.getLast?_eq_some_iff.1 slash
    refine ⟨(pieces before).map String.ofList, by simp [pieces_ne_nil], .inr ?_, ?_⟩
    · rw [segments, text, pieces_append_slash]
      simp [pieces]
    · rw [segments, String.toList_append, text, List.append_assoc, List.singleton_append,
        pieces_append_slash, last]
      simp
  · refine ⟨base.segments, base.segments_ne_nil, .inl rfl, ?_⟩
    have text : (base.text ++ "/" ++ name).toList = base.text.toList ++ '/' :: name.toList := by
      simp
    rw [segments, text, pieces_append_slash, last]
    simp [segments]

theorem route_joinName : (base.joinName name).route = base.route ++ [.name name] := by
  obtain ⟨front, inhabited, split, joined⟩ := segments_joinName filled proper
  have last : plainRoute [name] = [.name name] := by
    simp [plainRoute, componentOf, proper.1, proper.2.1, proper.2.2.1]
  have empty : plainRoute [""] = [] := by simp [plainRoute]
  rw [route_eq, route_eq, isAbsolute_joinName filled proper, joined]
  rcases split with same | same
  · rw [same, plainRoute_append, relativeRoute_append inhabited, last]
    split <;> rfl
  · rw [same, plainRoute_append, plainRoute_append, relativeRoute_append inhabited,
      relativeRoute_append inhabited, last, empty, List.append_nil, List.append_nil]
    split <;> rfl

end JoinName

def descend (base : Path) (names : List String) : Path := names.foldl joinName base

theorem route_descend {base : Path} {names : List String} (filled : base.text ≠ "")
    (proper : ∀ name ∈ names, IsName name) :
    (base.descend names).route = base.route ++ names.map .name := by
  induction names generalizing base with
  | nil => exact (List.append_nil _).symm
  | cons name rest ih =>
    have ⟨here, later⟩ := List.forall_mem_cons.1 proper
    have below := ih (filled_joinName here base) later
    rw [route_joinName filled here, List.append_assoc] at below
    exact below

theorem fileName?_descend {base : Path} {names : List String} (filled : base.text ≠ "")
    (proper : ∀ name ∈ names, IsName name) {name : String} (last : names.getLast? = some name) :
    (base.descend names).fileName? = some name := by
  rw [fileName?, route_descend filled proper, List.getLast?_append, List.getLast?_map, last]
  rfl

end Path

namespace Disk

section Descend

variable {d : Disk} {base : Path} {full : FullName}

theorem follow_joinName {name : String} (filled : base.text ≠ "") (proper : IsName name)
    (reached : d.follow (d.origin (base.joinName name)) (base.joinName name).segments = .ok full) :
    ∃ folder, d.follow (d.origin base) base.segments = .ok folder ∧ full = folder ++ [name] := by
  obtain ⟨front, _, split, joined⟩ := Path.segments_joinName filled proper
  rw [origin, Path.isAbsolute_joinName filled proper, joined, follow_append] at reached
  obtain ⟨folder, first, last⟩ := bind_eq_ok.1 reached
  rw [follow] at last
  split at last
  · cases last
  · cases last
  · rename_i present
    rw [if_neg (by simp [proper.1, proper.2.1]), if_neg proper.2.2.1] at last
    split at last
    · cases last
    · cases last
      refine ⟨folder, ?_, rfl⟩
      rcases split with same | same
      · rw [same]
        exact first
      · rw [same, follow_append, origin, first]
        simp [Except.bind, follow, present]

theorem filled_of_accepted (accepted : acceptSpelling base = .ok ()) : base.text ≠ "" := by
  intro empty
  rw [acceptSpelling, empty] at accepted
  split at accepted
  · cases accepted
  · cases accepted

theorem follow_descend {names : List String} (filled : base.text ≠ "")
    (proper : ∀ name ∈ names, IsName name)
    (reached : d.follow (d.origin (base.descend names)) (base.descend names).segments = .ok full) :
    ∃ folder, d.follow (d.origin base) base.segments = .ok folder ∧ full = folder ++ names := by
  induction names generalizing base with
  | nil => exact ⟨full, reached, (List.append_nil _).symm⟩
  | cons name rest ih =>
    have ⟨here, later⟩ := List.forall_mem_cons.1 proper
    obtain ⟨inner, middle, rfl⟩ := ih (Path.filled_joinName here base) later reached
    obtain ⟨folder, start, rfl⟩ := follow_joinName filled here middle
    exact ⟨folder, start, List.append_assoc ..⟩

theorem locate_descend {names : List String} {folder : FullName}
    (located : d.locate base = .ok folder) (proper : ∀ name ∈ names, IsName name)
    (reached : d.locate (base.descend names) = .ok full) :
    full = folder ++ names := by
  obtain ⟨accepted, start⟩ := locate_eq_ok_iff.1 located
  obtain ⟨there, same, rfl⟩ :=
    follow_descend (filled_of_accepted accepted) proper (locate_eq_ok_iff.1 reached).2
  cases start.symm.trans same
  rfl

end Descend

end Disk

end LineLedger
