import Mathlib.Data.List.Nodup
import LineLedger.Proofs.Disk.Rename
import LineLedger.Proofs.Table
import LineLedger.Proofs.Toml.Read
import LineLedger.SettingsFile

set_option autoImplicit false

namespace LineLedger.Settings

open Toml (Item Key Leads)

section Text

def overrideTexts (s : Settings) : List (Key × List Char) :=
  s.overrides.entries.map fun (ext, name) => (ext.toList, name.toList)

def toEntries (s : Settings) : List (Key × Item) := [
  ("extensions".toList, .array ((s.extensions.map String.toList).map .text)),
  ("confirm".toList, .text s.confirm.name.toList),
  ("overrides".toList, .table false false (s.overrideTexts.map fun pair => (pair.1, .text pair.2))),
  ("logging".toList, .table false false [("level".toList, .text s.logLevel.toList)])]

theorem nodup_overrideTexts (s : Settings) : (s.overrideTexts.map Prod.fst).Nodup := by
  have keys : s.overrideTexts.map Prod.fst = s.overrides.keys.map String.toList := by
    simp [overrideTexts, Table.keys]
  rw [keys]
  exact s.overrides.nodup_keys.map fun _ _ same => String.toList_inj.1 same

theorem toList_toToml (s : Settings) : s.toToml.toList =
    Toml.writeEntry "extensions".toList (Toml.writeTexts (s.extensions.map String.toList)) ++
    (Toml.writeEntry "confirm".toList (Toml.writeText s.confirm.name.toList) ++
    '\n' :: '[' :: ("overrides".toList ++ ']' :: '\n' ::
    ((s.overrideTexts.flatMap fun pair => Toml.writeEntry pair.1 (Toml.writeText pair.2)) ++
    '\n' :: '[' :: ("logging".toList ++ ']' :: '\n' ::
    (Toml.writeEntry "level".toList (Toml.writeText s.logLevel.toList) ++ []))))) := by
  rw [toToml, String.toList_ofList]
  simp [overrideTexts, List.flatMap_map]

theorem leads_toToml (s : Settings) :
    Leads .empty s.toToml.toList ⟨.table false false s.toEntries, ["logging".toList]⟩ := by
  rw [toList_toToml]
  -- Line by line: two entries of the root, the overrides under their header, then the level.
  refine Toml.leads_entry (Toml.writes_writeTexts _) (Toml.addValue_root rfl) ?_
  refine Toml.leads_entry (Toml.writes_writeText _) (Toml.addValue_root rfl) ?_
  refine Toml.leads_header (by decide) (Toml.addHeader_root rfl _) ?_
  refine Toml.leads_entries rfl _ s.nodup_overrideTexts ?_
  refine Toml.leads_header (by decide) (Toml.addHeader_root rfl _) ?_
  refine Toml.leads_entry (Toml.writes_writeText _) (Toml.addValue_last rfl rfl) ?_
  exact Toml.leads_nil _

theorem read?_toToml (s : Settings) : Toml.read? s.toToml.toList = some s.toEntries := by
  have unmarked : Toml.skipMark s.toToml.toList = s.toToml.toList := by
    rw [toList_toToml]
    rfl
  rw [Toml.read?, unmarked, leads_toToml s _ (Nat.lt_succ_self _)]
  rfl

theorem modeOf?_name (mode : ConfirmMode) : modeOf? (.text mode.name.toList) = some mode := by
  cases mode <;> rfl

theorem textsOf?_texts (texts : List String) :
    textsOf? (.array ((texts.map String.toList).map .text)) = some texts := by
  rw [textsOf?, List.map_map]
  exact mapM_map_eq_some fun text _ => by simp [textOf?]

theorem overridesOf?_overrideTexts (s : Settings) : overridesOf?
    (.table false false (s.overrideTexts.map fun pair => (pair.1, .text pair.2))) =
      some s.overrides := by
  rw [overridesOf?, overrideEntries?, overrideTexts, List.map_map,
    mapM_map_eq_some fun entry _ => ?_]
  · simp [Table.ofList_entries]
  · simp [textOf?]

theorem ofEntries?_toEntries (s : Settings) : ofEntries? s.toEntries = some s := by
  have extensions : entryOr s.toEntries "extensions" defaultExtensions textsOf? =
      some s.extensions := textsOf?_texts s.extensions
  have confirm : entryOr s.toEntries "confirm" .perFile modeOf? = some s.confirm :=
    modeOf?_name s.confirm
  have overrides : entryOr s.toEntries "overrides" .empty overridesOf? = some s.overrides :=
    s.overridesOf?_overrideTexts
  have logging : entryOr s.toEntries "logging" defaultLogLevel loggingOf? = some s.logLevel := by
    change some (String.ofList s.logLevel.toList) = _
    rw [String.ofList_toList]
  rw [ofEntries?, extensions, confirm, overrides, logging]
  rfl

theorem ofToml?_toToml (s : Settings) : ofToml? s.toToml = some s := by
  rw [ofToml?, read?_toToml, Option.bind_some, ofEntries?_toEntries]

end Text

section File

variable {s : Settings} {d e : Disk} {path : Path}

theorem save_eq_ok (saved : s.save d path = (.ok (), e)) :
    ∃ f g : Disk, f.overwrite (path.withExtension "tmp") s.toToml = .ok g ∧
      g.rename (path.withExtension "tmp") path = .ok e := by
  rw [save] at saved
  split at saved
  · cases saved
  · rename_i f _
    dsimp only at saved
    split at saved
    · cases saved
    · rename_i g written
      split at saved
      · cases saved
      · rename_i moved
        cases saved
        exact ⟨f, g, written, moved⟩

theorem loadFrom_save (valid : s.validate = .ok ()) (saved : s.save d path = (.ok (), e)) :
    loadFrom e path = .ok s := by
  obtain ⟨f, g, written, moved⟩ := save_eq_ok saved
  obtain ⟨_, isLocked, beside⟩ := Disk.find_overwrite written
  obtain ⟨there, found⟩ := Disk.find_rename beside moved
  have holds : e.holds path = true := by simp [Disk.holds, Disk.isFile, found]
  have content : e.readContent path = .ok (.text s.toToml) := by
    simp [Disk.readContent, found, bind, Except.bind]
  simp [loadFrom, holds, content, ofToml?_toToml, valid]

theorem loadFrom_save_quoted :
    let s : Settings := ⟨[".\"a\"'\n\\", "\x01\r"], .once,
      .ofList [("t\"\t'", "text"), ("", "c++")], "debug"⟩
    let d : Disk := ⟨⟨.ofList [(["home"], .folder)], by decide⟩, ["home"], ⟨"/home/.config"⟩⟩
    let path : Path := ⟨"new/settings.toml"⟩
    s.validate = .ok () ∧ (s.save d path).1 = .ok () ∧
      loadFrom (s.save d path).2 path = .ok s :=
  ⟨rfl, rfl, loadFrom_save rfl (Prod.ext rfl rfl)⟩

end File

end LineLedger.Settings
