import LineLedger.Proofs.Disk.Files
import LineLedger.SettingsFile

set_option autoImplicit false

namespace LineLedger.Settings

open Disk (SameFilesBut)

def beside (path : Path) : Path := path.withExtension "tmp"

-- The text was written beside the path, and could not be moved into place.
def IsStranded (path : Path) (failure : Failure) : Prop :=
  beside path ≠ path ∧ ∃ fault, failure = .unwritable path fault

section Steps

variable {s : Settings} {d e : Disk} {path : Path} {outcome : Except Failure Unit}

theorem files_createParents (d : Disk) (path : Path) :
    SameFilesBut [] d (createParents d path).2 := by
  rw [createParents]
  split
  · split
    · exact .refl [] d
    · exact Disk.files_createFolders d _
  · exact .refl [] d

-- Either nothing was written, or the text stands beside the path and is moved, or stays there.
theorem save_cases (saved : s.save d path = (outcome, e)) :
    (∃ failure, outcome = .error failure ∧ ¬ IsStranded path failure ∧ SameFilesBut [] d e) ∨
    ∃ f g : Disk, SameFilesBut [] d f ∧ f.overwrite (beside path) s.toToml = .ok g ∧
      ((∃ fault, g.rename (beside path) path = .error fault ∧
          outcome = .error (.unwritable path fault) ∧ e = g) ∨
        g.rename (beside path) path = .ok e ∧ outcome = .ok ()) := by
  have grown := files_createParents d path
  rw [save] at saved
  split at saved
  · rename_i parents
    cases saved
    rw [parents] at grown
    exact .inl ⟨_, rfl, by simp [IsStranded], grown⟩
  · rename_i f parents
    dsimp only at saved
    rw [parents] at grown
    split at saved
    · cases saved
      refine .inl ⟨_, rfl, ?_, grown⟩
      rintro ⟨apart, fault, same⟩
      injection same with there
      exact apart there
    · rename_i g written
      refine .inr ⟨f, g, grown, written, ?_⟩
      split at saved
      · rename_i fault stuck
        cases saved
        exact .inl ⟨fault, stuck, rfl, rfl⟩
      · rename_i moved
        cases saved
        exact .inr ⟨moved, rfl⟩

end Steps

theorem save_frame (d : Disk) (s : Settings) (path : Path) :
    match s.save d path with
    | (.ok (), e) => ∃ there aside isLocked,
        e.locate path = .ok there ∧ e.locate (beside path) = .ok aside ∧
        e.file? there = some (.text s.toToml, isLocked) ∧
        SameFilesBut [there, aside] d e ∧ (aside ≠ there → e.file? aside = none) ∧
        (SameFilesBut [there] d e ↔ aside = there ∨ d.file? aside = none)
    | (.error failure, e) =>
        (¬ IsStranded path failure → SameFilesBut [] d e) ∧
        (IsStranded path failure → ∃ aside isLocked, e.locate (beside path) = .ok aside ∧
          e.file? aside = some (.text s.toToml, isLocked) ∧ SameFilesBut [aside] d e) := by
  generalize saved : s.save d path = result
  obtain ⟨outcome, e⟩ := result
  rcases save_cases saved with ⟨failure, rfl, settled, same⟩ |
    ⟨f, g, around, written, moved⟩
  · exact ⟨fun _ => same, fun stranded => absurd stranded settled⟩
  · obtain ⟨aside, isLocked, located, held, only⟩ := Disk.file?_overwrite written
    have before : SameFilesBut [aside] d g := around.trans only
    rcases moved with ⟨fault, stuck, rfl, rfl⟩ | ⟨moved, rfl⟩
    · -- To move a file onto itself cannot fail.
      have apart : beside path ≠ path := by
        intro same
        rw [same] at stuck located
        have found := Disk.find_eq_ok_iff.2 ⟨located, held⟩
        cases stuck.symm.trans (Disk.rename_self found)
      exact ⟨fun settled => absurd ⟨apart, fault, rfl⟩ settled,
        fun _ => ⟨aside, isLocked, located, Disk.file?_of_node? held, before⟩⟩
    · obtain ⟨there, kept, reached, files⟩ := Disk.file?_rename located held moved
      have left : aside ≠ there → e.file? aside = none := fun apart => by simp [files, apart]
      have others : SameFilesBut [there, aside] d e := by
        intro name elsewhere
        simp only [List.mem_cons, List.not_mem_nil, or_false, not_or] at elsewhere
        rw [files, if_neg elsewhere.1, if_neg elsewhere.2, before name (by simp [elsewhere.2])]
      refine ⟨there, aside, isLocked, reached, kept, by simp [files], others, left, ?_, ?_⟩
      · intro frame
        by_cases same : aside = there
        · exact .inl same
        · exact .inr ((frame aside (by simpa using same)).symm.trans (left same))
      · intro free name elsewhere
        have apart : name ≠ there := by simpa using elsewhere
        by_cases here : name = aside
        · subst here
          rw [left apart, free.resolve_left apart]
        · exact others name (by simp [apart, here])

def home : Disk :=
  ⟨⟨.ofList [(["home"], .folder), (["home", "a.tmp"], .file (.text "keep\n") false),
    (["home", "b"], .folder)], by decide +kernel⟩, ["home"], ⟨"/home/.config"⟩⟩

theorem save_frame_apart :
    let path : Path := ⟨"new/a.toml"⟩
    let (outcome, e) := default.save home path
    outcome = .ok () ∧ SameFilesBut [["home", "new", "a.toml"]] home e := by
  intro path
  have frame := save_frame home default path
  have saved : default.save home path = (.ok (), (default.save home path).2) :=
    Prod.ext (by decide +kernel) rfl
  rw [saved] at frame ⊢
  obtain ⟨there, aside, -, reached, kept, -, -, -, others⟩ := frame
  have target : there = ["home", "new", "a.toml"] :=
    Except.ok.inj (reached.symm.trans (by decide +kernel))
  have second : aside = ["home", "new", "a.tmp"] :=
    Except.ok.inj (kept.symm.trans (by decide +kernel))
  rw [target, second] at others
  exact ⟨rfl, others.2 (.inr (by decide +kernel))⟩

theorem save_takes_second :
    let s : Settings := ⟨[], .perFile, .empty, "info"⟩
    (let (outcome, e) := s.save home ⟨"a.toml"⟩
     outcome = .ok () ∧ e.locate ⟨"a.toml"⟩ = .ok ["home", "a.toml"] ∧
     home.file? ["home", "a.tmp"] = some (.text "keep\n", false) ∧
     e.file? ["home", "a.tmp"] = none) ∧
    (let (outcome, e) := s.save home ⟨"b"⟩
     outcome = .error (.unwritable ⟨"b"⟩ .isDirectory) ∧ home.file? ["home", "b.tmp"] = none ∧
     e.file? ["home", "b.tmp"] = some (.text s.toToml, false)) := by
  decide +kernel

end LineLedger.Settings
