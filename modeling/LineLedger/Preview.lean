import LineLedger.Script
import LineLedger.Session
import LineLedger.SettingsFile

set_option autoImplicit false

namespace LineLedger

abbrev Preview := List (Path × List Row)

inductive Conclusion where
  | tried (unreadable : Failures)
  | resolved (report : ResolveReport)
deriving DecidableEq, Repr

structure EditOutcome where
  preview : Preview
  conclusion : Conclusion
deriving DecidableEq, Repr

-- Answers no, because there is no terminal to ask at; the state tells whether it was asked.
def Policy.withoutTerminal : Policy Bool := ⟨fun _ _ => (Confirmation.no.always, true)⟩

def Failure.withoutTerminal : Failure :=
  .prompt "Confirmation cancelled: IO error: not a terminal"

namespace ResolveReport

def addFailed (r : ResolveReport) (failed : Failures) : ResolveReport :=
  { r with failed := r.failed ++ failed }

def isEmpty (r : ResolveReport) : Bool :=
  r.committed.isEmpty && r.rejected.isEmpty && r.failed.isEmpty

end ResolveReport

namespace Session

variable [Python.Grammar]

def preview (s : Session) (d : Disk) : List Path → Preview × Failures × Session
  | [] => ([], [], s)
  | path :: rest =>
    let (rows, s) := s.display d path
    let (shown, unreadable, s) := preview s d rest
    match rows with
    | .ok rows => ((path, rows.filter fun row => row.pending.isSome) :: shown, unreadable, s)
    | .error failure => (shown, (path, failure) :: unreadable, s)

def commitUnasked (mode : ConfirmMode) (s : Session) (d : Disk) :
    Except Failure ResolveReport × Session × Disk :=
  if s.pending.size = 0 then (.ok .empty, s, d)
  else
    let (report, wasAsked, s, d) := s.commit (mode.apply .withoutTerminal) false d
    (if wasAsked then .error .withoutTerminal else .ok report, s, d)

def conclude (s : Session) (d : Disk) (files : List Path) (dryRun yes : Bool) :
    Except Failure EditOutcome × Session × Disk :=
  let (shown, unreadable, s) := s.preview d files
  let s := unreadable.foldl (fun s file => s.discard file.1) s
  if dryRun then (.ok ⟨shown, .tried unreadable⟩, s, d)
  else
    let mode := if yes then .never else s.settings.confirm
    let (report, s, d) := s.commitUnasked mode d
    (report.map fun report => ⟨shown, .resolved (report.addFailed unreadable)⟩, s, d)

variable [Disk.Walker]

def queueScript (settings : Settings) (d : Disk) (path : Path) :
    Except Failure (Session × List Path) := do
  let script ← Script.load d path
  let s ← start (Script.folder path) settings
  .ok ({ s with pending := script.recordInto s.pending }, script.files)

def queueRename (settings : Settings) (d : Disk) (folder : Path) (whole : Bool)
    (old new : String) : Except Failure (Session × List Path) := do
  let s ← start folder settings
  match s.rename d whole old new with
  | (.error failure, _) => .error failure
  | (.ok report, s) => .ok (s, report.files)

def edit (queued : Except Failure (Session × List Path)) (d : Disk) (dryRun yes : Bool) :
    Except Failure EditOutcome × Disk :=
  match queued with
  | .error failure => (.error failure, d)
  | .ok (s, files) =>
    let (outcome, _, d) := s.conclude d files dryRun yes
    (outcome, d)

end Session

end LineLedger
