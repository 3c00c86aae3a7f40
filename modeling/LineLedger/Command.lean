import LineLedger.Answer

set_option autoImplicit false

namespace LineLedger

inductive Command where
  | classify (file : Path)
  | scan (folder : Path) (extensions : List String)
  | extensions (folder : Path)
  | apply (script : Path) (dryRun yes : Bool)
  | rename (old new : String) (folder : Path) (extensions : List String) (whole dryRun yes : Bool)
deriving DecidableEq, Repr

namespace Settings

def withExtensions (s : Settings) (extensions : List String) : Settings :=
  if extensions.isEmpty then s else { s with extensions }

def accepts (s : Settings) (ext : String) : Bool :=
  s.extensions.any fun accepted => Extension.normalize accepted == Extension.normalize ext

end Settings

namespace Command

variable [Python.Grammar]

def classifyFile (settings : Settings) (d : Disk) (file : Path) : Except Failure (List Record) :=
  match settings.registry with
  | .ok registry => (registry.classifyFile d file).1
  | .error problem => .error (.settings problem)

variable [Disk.Walker]

def scanBelow (settings : Settings) (d : Disk) (folder : Path) : Except Failure ScanReport := do
  let s ← Session.start folder settings
  (s.scan d).1

def extensionsBelow (settings : Settings) (d : Disk) (folder : Path) :
    Except Failure (List (String × Bool)) := do
  let found ← d.discoverExtensions folder
  .ok (found.map fun ext => (ext, settings.accepts ext))

def run (command : Command) (settings : Settings) (d : Disk) : Except Failure Answer × Disk :=
  match command with
  | .classify file => ((classifyFile settings d file).map Answer.records, d)
  | .scan folder exts => ((scanBelow (settings.withExtensions exts) d folder).map Answer.scan, d)
  | .extensions folder => ((extensionsBelow settings d folder).map Answer.extensions, d)
  | .apply script dryRun yes =>
    let queued := Session.queueScript settings d script
    let (outcome, d) := Session.edit queued d dryRun yes
    (outcome.map Answer.edit, d)
  | .rename old new folder exts whole dryRun yes =>
    let queued := Session.queueRename (settings.withExtensions exts) d folder whole old new
    let (outcome, d) := Session.edit queued d dryRun yes
    (outcome.map Answer.edit, d)

end Command

end LineLedger
