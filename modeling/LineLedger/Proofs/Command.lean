import LineLedger.Command
import LineLedger.Proofs.Walk.Extensions
import LineLedger.Python.Parse

set_option autoImplicit false

namespace LineLedger

section Accepts

variable {settings : Settings} {d : Disk} {folder : Path} {ext : String}

theorem Settings.accepts_iff : settings.accepts ext = true ↔
    ∃ accepted ∈ settings.extensions, Extension.normalize accepted = Extension.normalize ext := by
  simp [Settings.accepts]

variable [Disk.Walker]

theorem Settings.accepts_found (listed : ext ∈ d.found folder) : settings.accepts ext = true ↔
    settings.extensions ≠ [] ∧
      ∃ path ∈ d.taken folder settings.extensions, Disk.listedAs? path = some ext := by
  obtain ⟨first, reached, named⟩ := Disk.mem_found.1 listed
  rw [Settings.accepts_iff]
  constructor
  · rintro ⟨accepted, member, same⟩
    have has := (Disk.listedAs?_eq_some_iff named first).2 named
    rw [← same] at has
    exact ⟨List.ne_nil_of_mem member, first,
      Disk.mem_taken.2 ⟨reached, Disk.accepts_iff.2 (.inr ⟨accepted, member, has⟩)⟩, named⟩
  · rintro ⟨nonempty, path, member, also⟩
    have has := (Disk.listedAs?_eq_some_iff named path).2 also
    obtain ⟨accepted, asked, same⟩ :=
      (Disk.accepts_iff.1 (Disk.mem_taken.1 member).2).resolve_left nonempty
    exact ⟨accepted, asked, Option.some.inj (same.symm.trans has)⟩

theorem exists_taken_of_nil (listed : ext ∈ d.found folder) :
    ∃ path ∈ d.taken folder [], Disk.listedAs? path = some ext := by
  obtain ⟨path, reached, named⟩ := Disk.mem_found.1 listed
  exact ⟨path, Disk.mem_taken_nil.2 reached, named⟩

theorem Session.files_start {s : Session} (started : Session.start folder settings = .ok s) :
    s.files d = d.collectFiles folder settings.extensions := by
  rw [Session.start] at started
  split at started
  · cases started
    rfl
  · cases started

end Accepts

namespace Command

def Truthful (found : List String) (isAccepted : String → Bool) (files : List Path) : Prop :=
  ∀ ext ∈ found, isAccepted ext = false ↔ ∀ path ∈ files, Disk.listedAs? path ≠ some ext

theorem truthful_iff [Disk.Walker] (settings : Settings) (d : Disk) (folder : Path) :
    Truthful (d.found folder) settings.accepts (d.taken folder settings.extensions) ↔
      settings.extensions ≠ [] ∨ d.found folder = [] := by
  constructor
  · intro truthful
    by_contra unlisted
    rw [not_or, not_not] at unlisted
    obtain ⟨empty, inhabited⟩ := unlisted
    obtain ⟨ext, listed⟩ := List.exists_mem_of_ne_nil _ inhabited
    have refused : settings.accepts ext = false := by
      rw [← Bool.not_eq_true, Settings.accepts_found listed]
      exact fun both => both.1 empty
    obtain ⟨path, member, named⟩ := exists_taken_of_nil listed
    exact (truthful ext listed).1 refused path (empty ▸ member) named
  · rintro (nonempty | unfound) ext listed
    · rw [← Bool.not_eq_true, Settings.accepts_found listed]
      simp [nonempty]
    · rw [unfound] at listed
      cases listed

theorem extensions_marked [Python.Grammar] [Disk.Walker] (settings : Settings) (d : Disk)
    (folder : Path) :
    (∀ s, Session.start folder settings = .ok s →
      s.files d = d.collectFiles folder settings.extensions) ∧
    match d.collectFiles folder settings.extensions with
    | .error failure => (Command.extensions folder).run settings d = (.error failure, d)
    | .ok files => ∃ found, d.discoverExtensions folder = .ok found ∧
        (∃ answer, (Command.extensions folder).run settings d = (.ok answer, d) ∧
          ∀ inColour, answer.toText inColour = showLines (found.map fun ext =>
            if settings.accepts ext then ext else ext ++ "  (not accepted)")) ∧
        (∀ ext ∈ found, settings.accepts ext = true ↔ settings.extensions ≠ [] ∧
          ∃ path ∈ files, Disk.listedAs? path = some ext) ∧
        (Truthful found settings.accepts files ↔ settings.extensions ≠ [] ∨ found = []) := by
  refine ⟨fun s started => Session.files_start started, ?_⟩
  cases required : d.requireFolder folder with
  | error failure =>
      rw [Disk.collectFiles, required]
      simp only [run, extensionsBelow, Disk.discoverExtensions, required]
      rfl
  | ok =>
      rw [Disk.collectFiles_eq_taken required]
      refine ⟨d.found folder, Disk.discoverExtensions_eq required, ?_,
        fun ext listed => Settings.accepts_found listed, truthful_iff settings d folder⟩
      refine ⟨.extensions ((d.found folder).map fun ext => (ext, settings.accepts ext)), ?_, ?_⟩
      · simp only [run, extensionsBelow, Disk.discoverExtensions_eq required]
        rfl
      · intro inColour
        simp only [Answer.toText, List.map_map]
        refine congrArg showLines (List.map_congr_left fun ext listed => ?_)
        by_cases accepted : settings.accepts ext = true <;> simp [accepted]

def accepting (extensions : List String) : Settings := { Settings.default with extensions }

theorem extensions_marked_sources :
    let settings := accepting [". py", "Aσ"]
    ∃ s files, Session.start ⟨"."⟩ settings = .ok s ∧ s.files Disk.sources = .ok files ∧
      Truthful [".aσ", ".py"] settings.accepts files ∧ settings.accepts ".py" = false := by
  intro settings
  obtain ⟨walked, marked⟩ := extensions_marked settings Disk.sources ⟨"."⟩
  have taken : Disk.sources.collectFiles ⟨"."⟩ settings.extensions = .ok [⟨"./x.aσ"⟩] :=
    Disk.collectFiles_of_found (by decide +kernel) (by decide +kernel) (by decide +kernel)
  have discovery : Disk.sources.discoverExtensions ⟨"."⟩ = .ok [".aσ", ".py"] := by
    decide +kernel
  rw [taken] at marked
  obtain ⟨found, discovered, -, -, truthful⟩ := marked
  cases discovered.symm.trans discovery
  have started : Session.start ⟨"."⟩ settings =
      .ok ⟨⟨"."⟩, settings, .ofOverrides [], .empty⟩ := by rfl
  exact ⟨_, _, started, (walked _ started).trans taken, truthful.2 (.inl (by decide)),
    by decide +kernel⟩

theorem extensions_marked_unlisted :
    let settings := accepting []
    let (answer, _) := (Command.extensions ⟨"."⟩).run settings Disk.sources
    answer.map (Answer.toText false) = .ok ".aσ  (not accepted)\n.py  (not accepted)\n" ∧
    Disk.sources.collectFiles ⟨"."⟩ settings.extensions =
      .ok [⟨"./Makefile"⟩, ⟨"./a.py"⟩, ⟨"./b.PY"⟩, ⟨"./x.aσ"⟩] ∧
    Disk.listedAs? ⟨"./x.aσ"⟩ = some ".aσ" ∧ Disk.listedAs? ⟨"./a.py"⟩ = some ".py" := by
  refine ⟨by decide +kernel, ?_, by decide +kernel, by decide +kernel⟩
  exact Disk.collectFiles_of_found (by decide +kernel) (by decide +kernel) (by decide +kernel)

end Command

end LineLedger
