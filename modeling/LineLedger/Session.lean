import LineLedger.Classification
import LineLedger.Pending
import LineLedger.Row
import LineLedger.Settings
import LineLedger.Walk

set_option autoImplicit false

namespace LineLedger

structure ScanReport where
  files : List (Path × List Record)
  failed : Failures
deriving DecidableEq, Repr

namespace ScanReport

def empty : ScanReport := ⟨[], []⟩

def recordCount (r : ScanReport) : Nat :=
  r.files.foldr (fun file count => file.2.length + count) 0

end ScanReport

variable [Python.Grammar]

namespace Registry

def scan (d : Disk) (r : Registry) : List Path → ScanReport × Registry
  | [] => (.empty, r)
  | path :: rest =>
    let (records, r) := r.classifyFile d path
    let (report, r) := scan d r rest
    match records with
    | .ok records => ({ report with files := (path, records) :: report.files }, r)
    | .error failure => ({ report with failed := (path, failure) :: report.failed }, r)

end Registry

-- The lines from `next` on, with blank lines where none is given.
def withoutGaps (next : Nat) : List (Nat × String) → List String
  | [] => []
  | (line, text) :: rest =>
    List.replicate (line - next) "\n" ++ text :: withoutGaps (line + 1) rest

namespace Pending

def rowOf (changes : Option ChangeSet) (r : Record) : Row :=
  ⟨r, (changes.bind fun set => set.get? (r.line - 1)).map Change.kind⟩

def rows (p : Pending) (language : Language) (d : Disk) (path : Path)
    (shown : Option (Table Nat String)) : Except Failure (List Row) :=
  match shown with
  | none => do
    let records ← language.classifyFile d path
    .ok (records.map fun r => ⟨r, none⟩)
  | some lines =>
    let source := String.join (withoutGaps 0 lines.entries)
    .ok ((language.classifyAs path source).map (rowOf (p.get? path)))

end Pending

structure Session where
  root : Path
  settings : Settings
  registry : Registry
  pending : Pending
deriving DecidableEq

namespace Session

def start (root : Path) (settings : Settings) : Except Failure Session :=
  match settings.registry with
  | .ok registry => .ok ⟨root, settings, registry, .empty⟩
  | .error problem => .error (.settings problem)

variable [Disk.Walker]

def files (s : Session) (d : Disk) : Except Failure (List Path) :=
  d.collectFiles s.root s.settings.extensions

def classify (s : Session) (d : Disk) (path : Path) : Except Failure (List Record) × Session :=
  let (records, registry) := s.registry.classifyFile d path
  (records, { s with registry })

def scan (s : Session) (d : Disk) : Except Failure ScanReport × Session :=
  match s.files d with
  | .error failure => (.error failure, s)
  | .ok files =>
    let (report, registry) := s.registry.scan d files
    (.ok report, { s with registry })

def display (s : Session) (d : Disk) (path : Path) : Except Failure (List Row) × Session :=
  match s.pending.overlay d path with
  | .error failure => (.error failure, s)
  | .ok shown =>
    let (language, registry) := s.registry.lookUpPath path
    (s.pending.rows language d path shown, { s with registry })

def rename (s : Session) (d : Disk) (whole : Bool) (old new : String) :
    Except Failure RenameReport × Session :=
  match s.files d with
  | .error failure => (.error failure, s)
  | .ok files =>
    let (report, pending) := Pending.rename whole old new d s.pending files
    (.ok report, { s with pending })

def discard (s : Session) (path : Path) : Session :=
  { s with pending := (s.pending.discard path).2 }

def commit {σ : Type} (policy : Policy σ) (state : σ) (s : Session) (d : Disk) :
    ResolveReport × σ × Session × Disk :=
  let (report, run) := Pending.resolveAll policy ⟨s.pending, d, state⟩
  (report, run.policy, { s with pending := run.pending }, run.disk)

end Session

end LineLedger
