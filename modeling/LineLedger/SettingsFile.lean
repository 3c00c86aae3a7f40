import LineLedger.Disk
import LineLedger.Settings
import LineLedger.Toml.Read
import LineLedger.Toml.Write

set_option autoImplicit false

namespace LineLedger.Settings

open Toml (Item)

section Decode

def textOf? : Item → Option String
  | .text value => some (String.ofList value)
  | _ => none

def textsOf? : Item → Option (List String)
  | .array items => items.mapM textOf?
  | _ => none

def isEmptyValue : Item → Bool
  | .array [] => true
  | .inline [] => true
  | .table _ _ [] => true
  | _ => false

def modeOfName? (name : List Char) : Option ConfirmMode :=
  ConfirmMode.all.find? fun mode => mode.name.toList = name

-- A mode is given by its name, or by a table with the name as its only key.
def modeOf? : Item → Option ConfirmMode
  | .text name => modeOfName? name
  | .inline [(name, value)] => if isEmptyValue value then modeOfName? name else none
  | .table _ _ [(name, value)] => if isEmptyValue value then modeOfName? name else none
  | _ => none

-- The key under which a date or time shows itself when a table is asked for.
def momentKey : String := "$__toml_private_datetime"

def overrideEntries? (entries : List (Toml.Key × Item)) : Option (Table String String) := do
  let entries ← entries.mapM fun (key, value) => (textOf? value).map (String.ofList key, ·)
  some (Table.ofList entries)

def overridesOf? : Item → Option (Table String String)
  | .inline entries => overrideEntries? entries
  | .table _ _ entries => overrideEntries? entries
  | .moment spelling => some (Table.ofList [(momentKey, String.ofList spelling)])
  | _ => none

def levelOf? (entries : List (Toml.Key × Item)) : Option String :=
  match entries.lookup "level".toList with
  | some value => textOf? value
  | none => some defaultLogLevel

def loggingOf? : Item → Option String
  | .inline entries => levelOf? entries
  | .table _ _ entries => levelOf? entries
  | .array [] => some defaultLogLevel
  | .array (level :: _) => textOf? level
  | .moment _ => some defaultLogLevel
  | _ => none

def entryOr {α : Type} (entries : List (Toml.Key × Item)) (name : String) (value : α)
    (decode : Item → Option α) : Option α :=
  match entries.lookup name.toList with
  | some item => decode item
  | none => some value

def ofEntries? (entries : List (Toml.Key × Item)) : Option Settings := do
  let extensions ← entryOr entries "extensions" defaultExtensions textsOf?
  let confirm ← entryOr entries "confirm" .perFile modeOf?
  let overrides ← entryOr entries "overrides" .empty overridesOf?
  let logLevel ← entryOr entries "logging" defaultLogLevel loggingOf?
  some ⟨extensions, confirm, overrides, logLevel⟩

def ofToml? (text : String) : Option Settings := (Toml.read? text.toList).bind ofEntries?

end Decode

def toToml (s : Settings) : String :=
  String.ofList <|
    Toml.writeEntry "extensions".toList (Toml.writeTexts (s.extensions.map String.toList)) ++
    Toml.writeEntry "confirm".toList (Toml.writeText s.confirm.name.toList) ++
    "\n[overrides]\n".toList ++
    s.overrides.entries.flatMap (fun (ext, name) =>
      Toml.writeEntry ext.toList (Toml.writeText name.toList)) ++
    "\n[logging]\n".toList ++
    Toml.writeEntry "level".toList (Toml.writeText s.logLevel.toList)

def localFile : Path := ⟨"linetype.toml"⟩

def userFile (d : Disk) : Path := (d.settings.joinName "linetype").joinName "config.toml"

def locate (d : Disk) (explicit : Option Path) : Option Path :=
  match explicit with
  | some path => some path
  | none =>
    if d.isFile localFile then some localFile
    else if d.isFile (userFile d) then some (userFile d)
    else none

-- A file that does not exist gives the default settings.
def loadFrom (d : Disk) (path : Path) : Except Failure Settings :=
  if !d.holds path then .ok default
  else
    match d.readContent path with
    | .error fault => .error (.unreadable path fault)
    | .ok (.bytes _) => .error (.unreadable path .notText)
    | .ok (.text text) =>
      match ofToml? text with
      | none => .error (.settings (.unreadableFile path))
      | some settings =>
        match settings.validate with
        | .ok () => .ok settings
        | .error problem => .error (.settings problem)

-- A file that is asked for has to exist.
def load (d : Disk) (explicit : Option Path) : Except Failure Settings :=
  match explicit with
  | some path =>
    if d.isFile path then loadFrom d path else .error (.settings (.missingFile path))
  | none =>
    match locate d none with
    | some path => loadFrom d path
    | none => .ok default

def createParents (d : Disk) (path : Path) : Except Fault Unit × Disk :=
  match path.parent? with
  | some parent => if parent.text.isEmpty then (.ok (), d) else d.createFolders parent
  | none => (.ok (), d)

-- The text is written beside the file and then moved into place. What was done stays done where a
-- later step fails.
def save (s : Settings) (d : Disk) (path : Path) : Except Failure Unit × Disk :=
  match createParents d path with
  | (.error fault, d) => (.error (.system fault), d)
  | (.ok (), d) =>
    let beside := path.withExtension "tmp"
    match d.overwrite beside s.toToml with
    | .error fault => (.error (.unwritable beside fault), d)
    | .ok d =>
      match d.rename beside path with
      | .error fault => (.error (.unwritable path fault), d)
      | .ok d => (.ok (), d)

end LineLedger.Settings
