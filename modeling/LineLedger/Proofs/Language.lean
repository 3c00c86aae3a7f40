import LineLedger.Language
import LineLedger.Path
import LineLedger.Proofs.Text.Lowered
import LineLedger.Proofs.Text.Trim

set_option autoImplicit false

namespace LineLedger

namespace Extension

def bare (ext : List Char) : List Char := (Text.trim ext).dropWhile (· = '.')

theorem normal_eq (ext : List Char) : normal ext = Text.lower (bare ext) := rfl

-- No blank stands behind the dots in front of an extension.
def IsTight (ext : List Char) : Prop :=
  ∀ c, (bare ext).head? = some c → Text.isBlank c = false

instance (ext : List Char) : Decidable (IsTight ext) :=
  match h : (bare ext).head? with
  | none => .isTrue fun c found => by simp [h] at found
  | some c => decidable_of_iff (Text.isBlank c = false) (by simp [IsTight, h])

section Ends

variable {ext : List Char} {c : Char}

theorem isBlank_head_trim (first : (Text.trim ext).head? = some c) : Text.isBlank c = false := by
  obtain ⟨dropped, split, -⟩ := Text.exists_dropped Text.isBlank (Text.trimStart ext)
  obtain ⟨rest, trimmed⟩ := List.head?_eq_some_iff.1 first
  have start : (ext.dropWhile Text.isBlank).head? = some c := by
    change (Text.trimStart ext).head? = some c
    rw [split, ← Text.trimEnd, ← Text.trim, trimmed]
    rfl
  have stopped := List.head?_dropWhile_not Text.isBlank ext
  rw [start] at stopped
  exact stopped

theorem isBlank_last_bare (last : (bare ext).getLast? = some c) : Text.isBlank c = false := by
  obtain ⟨dots, split⟩ : ∃ dots, Text.trim ext = dots ++ bare ext :=
    ⟨_, (List.takeWhile_append_dropWhile (p := (· = '.'))).symm⟩
  have ending : (Text.trim ext).getLast? = some c := by
    rw [split, List.getLast?_append, last]
    rfl
  exact Text.last_dropEndWhile ending

theorem ne_dot_head_bare (first : (bare ext).head? = some c) : c ≠ '.' := by
  have stopped := List.head?_dropWhile_not (· = '.') (Text.trim ext)
  rw [bare] at first
  rw [first] at stopped
  simpa using stopped

theorem trimStart_eq_self (front : ∀ c, ext.head? = some c → Text.isBlank c = false) :
    Text.trimStart ext = ext := by
  cases ext with
  | nil => rfl
  | cons c rest => exact List.dropWhile_cons_of_neg (by simp [front c rfl])

theorem trim_eq_self (front : ∀ c, ext.head? = some c → Text.isBlank c = false)
    (back : ∀ c, ext.getLast? = some c → Text.isBlank c = false) : Text.trim ext = ext := by
  rw [Text.trim, trimStart_eq_self front, Text.trimEnd, Text.dropEndWhile_of_last back]

end Ends

section Settled

variable {ext : List Char}

-- A normal form is in lower case, so only its ends can change.
theorem normal_normal (ext : List Char) : normal (normal ext) = bare (normal ext) := by
  rw [normal_eq (normal ext)]
  apply Text.lower_of_small
  intro c member
  obtain ⟨dots, split⟩ : ∃ dots, Text.trim (normal ext) = dots ++ bare (normal ext) :=
    ⟨_, (List.takeWhile_append_dropWhile (p := (· = '.'))).symm⟩
  obtain ⟨before, after, whole, -⟩ := Text.exists_trimmed (normal ext)
  have among : c ∈ Text.lower (bare ext) := by
    rw [← normal_eq, whole, split]
    simp [member]
  exact Text.isSmall_of_mem_lower among

theorem normal_normal_of_isTight (tight : IsTight ext) : normal (normal ext) = normal ext := by
  rw [normal_normal]
  cases bared : bare ext with
  | nil =>
      rw [normal_eq, bared]
      rfl
  | cons first rest =>
      have start : (bare ext).head? = some first := by rw [bared]; rfl
      obtain ⟨d, more, front, headLowers⟩ := Text.exists_head_lower first rest
      obtain ⟨before, last, ends⟩ : ∃ before last, first :: rest = before ++ [last] :=
        ⟨_, _, (List.dropLast_concat_getLast (by simp)).symm⟩
      obtain ⟨inner, e, back, lastLowers⟩ := Text.exists_last_lower before last
      have visible : Text.isBlank e = false := by
        rw [lastLowers.blank]
        exact isBlank_last_bare (by rw [bared, ends]; simp)
      have undotted : d ≠ '.' := mt headLowers.dot.1 (ne_dot_head_bare start)
      have trimmed : Text.trim (normal ext) = normal ext := by
        apply trim_eq_self
        · rw [normal_eq, bared, front]
          rintro c ⟨⟩
          rw [headLowers.blank]
          exact tight first start
        · rw [normal_eq, bared, ends, back]
          simpa using visible
      rw [bare, trimmed, normal_eq, bared, front]
      exact List.dropWhile_cons_of_neg (by simpa using undotted)

theorem isTight_of_normal_normal (same : normal (normal ext) = normal ext) : IsTight ext := by
  intro c start
  rw [normal_normal] at same
  obtain ⟨rest, bared⟩ := List.head?_eq_some_iff.1 start
  obtain ⟨d, more, front, lowers⟩ := Text.exists_head_lower c rest
  rw [← lowers.blank, ← Bool.not_eq_true]
  intro blank
  -- The blank in front would be trimmed off.
  have first : (bare (normal ext)).head? = some d := by
    rw [same, normal_eq, bared, front]
    rfl
  have trimmedShorter : (Text.trim (normal ext)).length < (normal ext).length := by
    have shorter := (List.dropWhile_sublist Text.isBlank (l := more)).length_le
    obtain ⟨dropped, split, -⟩ := Text.exists_dropped Text.isBlank (Text.trimStart (normal ext))
    have within := congrArg List.length split
    rw [List.length_append, ← Text.trimEnd, ← Text.trim, Text.trimStart] at within
    rw [normal_eq, bared, front, List.dropWhile_cons_of_pos blank] at within
    rw [normal_eq, bared, front, List.length_cons]
    omega
  have shorter := (List.dropWhile_sublist (· = '.') (l := Text.trim (normal ext))).length_le
  rw [← bare, same] at shorter
  omega

theorem normalize_normalize_iff (ext : String) :
    normalize (normalize ext) = normalize ext ↔ IsTight ext.toList := by
  rw [normalize, normalize, String.toList_ofList, String.ofList_inj]
  exact ⟨isTight_of_normal_normal, normal_normal_of_isTight⟩

theorem isTight_of_free (free : '.' ∉ ext) : IsTight ext := by
  have undotted : bare ext = Text.trim ext := by
    obtain ⟨before, after, whole, -⟩ := Text.exists_trimmed ext
    rw [bare]
    refine List.dropWhile_eq_self_iff.2 fun inhabited dot => free ?_
    rw [whole]
    have first := List.getElem_mem inhabited
    simp only [decide_eq_true_eq] at dot
    rw [dot] at first
    simp [first]
  intro c start
  rw [undotted] at start
  exact isBlank_head_trim start

end Settled

end Extension

theorem Path.extension?_free {p : Path} {ext : String} (found : p.extension? = some ext) :
    '.' ∉ ext.toList := by
  obtain ⟨name, -, split⟩ := Option.bind_eq_some_iff.1 found
  obtain ⟨after, rest, rfl⟩ := Option.map_eq_some_iff.1 split
  rw [splitAtDot] at rest
  split at rest
  · cases rest
  · cases rest
    rw [String.toList_ofList, List.mem_reverse]
    intro dot
    have := List.mem_takeWhile_imp dot
    simp at this

theorem Path.isTight_extension (p : Path) : Extension.IsTight (p.extension?.getD "").toList := by
  cases found : p.extension? with
  | none => exact fun c start => nomatch start
  | some ext => exact Extension.isTight_of_free (extension?_free found)

end LineLedger
