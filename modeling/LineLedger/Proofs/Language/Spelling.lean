import LineLedger.Proofs.Language
import LineLedger.Proofs.Text.Ends

set_option autoImplicit false

namespace LineLedger.Extension

section LetterCase

variable {ext other : List Char}

theorem bare_lower (ext : List Char) : bare (Text.lower ext) = Text.lower (bare ext) := by
  have inert : ∀ c, decide (c = '.') = true → Text.IsInert c := fun c dot =>
    (of_decide_eq_true dot) ▸ Text.isInert_dot
  have kept : ∀ c d, Text.Lowers c d → decide (d = '.') = decide (c = '.') := fun c d lowers =>
    decide_eq_decide.2 lowers.dot
  rw [bare, Text.trim_lower, Text.dropWhile_lower inert kept, ← bare]

theorem normal_lower (ext : List Char) : normal (Text.lower ext) = normal ext := by
  rw [normal_eq, bare_lower, Text.lower_lower, ← normal_eq]

theorem normal_eq_of_lower (same : Text.lower ext = Text.lower other) :
    normal ext = normal other := by
  rw [← normal_lower ext, same, normal_lower]

end LetterCase

section Dots

variable {ext other : List Char}

def undotted (ext : List Char) : List Char := ext.dropWhile (· = '.')

theorem exists_dots (ext : List Char) :
    ∃ dots, ext = dots ++ undotted ext ∧ ∀ c ∈ dots, c = '.' := by
  refine ⟨ext.takeWhile (· = '.'), List.takeWhile_append_dropWhile.symm, fun c member => ?_⟩
  simpa using List.mem_takeWhile_imp member

theorem ne_dot_head_undotted {c : Char} (first : (undotted ext).head? = some c) : c ≠ '.' := by
  have stopped := List.head?_dropWhile_not (· = '.') ext
  rw [undotted] at first
  rw [first] at stopped
  simpa using stopped

theorem undotted_of_head (front : ∀ c, ext.head? = some c → c ≠ '.') : undotted ext = ext := by
  cases ext with
  | nil => rfl
  | cons c rest => exact List.dropWhile_cons_of_neg (by simp [front c rfl])

theorem undotted_append {dots : List Char} (all : ∀ c ∈ dots, c = '.') (rest : List Char) :
    undotted (dots ++ rest) = undotted rest :=
  List.dropWhile_append_of_pos (by simpa using all)

-- Dots are not blank, so a text of nothing but dots in front of blanks keeps them.
theorem undotted_trimEnd (ext : List Char) :
    undotted (Text.trimEnd ext) = Text.trimEnd (undotted ext) := by
  obtain ⟨dots, split, all⟩ := exists_dots ext
  obtain ⟨blanks, trimmed, blank⟩ := Text.exists_dropped Text.isBlank (undotted ext)
  have kept : Text.trimEnd ext = dots ++ Text.trimEnd (undotted ext) := by
    rw [Text.trimEnd, Text.trimEnd]
    conv => lhs; rw [split, trimmed, ← List.append_assoc, Text.dropEndWhile_append blank]
    refine Text.dropEndWhile_of_last fun c last => ?_
    rw [List.getLast?_append] at last
    cases inner : (Text.dropEndWhile Text.isBlank (undotted ext)).getLast? with
    | some d =>
        rw [inner] at last
        cases last
        exact Text.last_dropEndWhile inner
    | none =>
        rw [inner] at last
        rw [all c (List.mem_of_getLast? last)]
        decide
  rw [kept, undotted_append all]
  refine undotted_of_head fun c first => ?_
  have start : (undotted ext).head? = some c := by
    rw [trimmed, List.head?_append, ← Text.trimEnd, first]
    rfl
  exact ne_dot_head_undotted start

theorem bare_eq (ext : List Char) :
    bare ext = Text.trimEnd (undotted (Text.trimStart ext)) := undotted_trimEnd _

theorem normal_dot (front : ∀ c, ext.head? = some c → Text.isBlank c = false) :
    normal ('.' :: ext) = normal ext := by
  have dotted : Text.trimStart ('.' :: ext) = '.' :: ext := trimStart_eq_self (by simp; decide)
  rw [normal_eq, normal_eq, bare_eq, bare_eq, dotted, trimStart_eq_self front, undotted, undotted,
    List.dropWhile_cons_of_pos (by decide)]

theorem normal_undotted (tight : IsTight ext) : normal (undotted ext) = normal ext := by
  obtain ⟨dots, split, all⟩ := exists_dots ext
  cases dots with
  | nil => rw [List.nil_append] at split; rw [← split]
  | cons first more =>
      have start : Text.trimStart ext = ext := by
        refine trimStart_eq_self fun c head => ?_
        rw [split] at head
        cases head
        rw [all first (List.mem_cons_self ..)]
        decide
      have bared : bare ext = Text.trimEnd (undotted ext) := by rw [bare_eq, start]
      rw [normal_eq, normal_eq, bared, bare_eq]
      obtain ⟨blanks, trimmed, blank⟩ := Text.exists_dropped Text.isBlank (undotted ext)
      cases ended : Text.trimEnd (undotted ext) with
      | nil =>
          have all := (Text.dropEndWhile_eq_nil_iff ..).1 ended
          rw [Text.trimStart_eq_nil_of_blank all]
          rfl
      | cons c rest =>
          have visible := tight c (by rw [bared, ended]; rfl)
          have front : (undotted ext).head? = some c := by
            rw [trimmed, ← Text.trimEnd, ended]
            rfl
          rw [trimStart_eq_self fun d head => by rw [front] at head; cases head; exact visible,
            undotted_of_head fun d => ne_dot_head_undotted, ended]

end Dots

theorem isTight_iff (ext : List Char) : IsTight ext ↔ normal (normal ext) = normal ext :=
  ⟨normal_normal_of_isTight, isTight_of_normal_normal⟩

theorem isTight_congr {ext other : List Char} (same : normal ext = normal other) :
    IsTight ext ↔ IsTight other := by
  rw [isTight_iff, isTight_iff, same]

theorem isBlank_head_normal {ext : List Char} (tight : IsTight ext) {c : Char}
    (first : (normal ext).head? = some c) : Text.isBlank c = false := by
  cases bared : bare ext with
  | nil =>
      rw [normal_eq, bared] at first
      cases first
  | cons d rest =>
      obtain ⟨e, more, split, lowers⟩ := Text.exists_head_lower d rest
      rw [normal_eq, bared, split] at first
      cases first
      rw [lowers.blank]
      exact tight d (by rw [bared]; rfl)

-- Letter by letter the same but for case, and without the capital that has two small letters.
def Recased (ext other : String) : Prop :=
  ext.toList.map Text.lowerChar = other.toList.map Text.lowerChar ∧
    'Σ' ∉ ext.toList ∧ 'Σ' ∉ other.toList

theorem Recased.lower_eq {ext other : String} (recased : Recased ext other) :
    Text.lower ext.toList = Text.lower other.toList :=
  Text.lower_eq_of_letters recased.1 recased.2.1 recased.2.2

theorem normalize_eq_of_lower {ext other : String}
    (same : Text.lower ext.toList = Text.lower other.toList) : normalize ext = normalize other := by
  rw [normalize, normalize, normal_eq_of_lower same]

def withoutDots (ext : String) : String := String.ofList (undotted ext.toList)

theorem normalize_withoutDots {ext : String} (tight : IsTight ext.toList) :
    normalize (withoutDots ext) = normalize ext := by
  rw [normalize, withoutDots, String.toList_ofList, normal_undotted tight, normalize]

theorem normalize_dotted {ext : String} (tight : IsTight ext.toList) :
    normalize ("." ++ normalize ext) = normalize ext := by
  have dotted : ("." ++ normalize ext).toList = '.' :: normal ext.toList := by simp [normalize]
  rw [normalize, dotted, normal_dot fun c first => isBlank_head_normal tight first,
    normal_normal_of_isTight tight, normalize]

end LineLedger.Extension
