import LineLedger.Change
import LineLedger.Confirm
import LineLedger.Disk
import LineLedger.Text.Replace

set_option autoImplicit false

namespace LineLedger

structure Pending where
  sets : Table Route ChangeSet
deriving DecidableEq

abbrev Failures := List (Path × Failure)

structure ResolveReport where
  committed : List Path
  rejected : List Path
  failed : Failures
deriving DecidableEq, Repr

namespace ResolveReport

def empty : ResolveReport := ⟨[], [], []⟩

def isClean (r : ResolveReport) : Bool := r.failed.isEmpty

def failureLines (failed : Failures) : String :=
  String.join (failed.map fun (path, failure) => "\n  " ++ path.text ++ ": " ++ failure.message)

def summary (r : ResolveReport) : String :=
  "Committed " ++ toString r.committed.length ++ " file(s), " ++ toString r.rejected.length ++
    " rejected, " ++ toString r.failed.length ++ " failed" ++ failureLines r.failed

end ResolveReport

structure RenameReport where
  edits : Nat
  files : List Path
  failed : Failures
deriving DecidableEq, Repr

def RenameReport.empty : RenameReport := ⟨0, [], []⟩

namespace Pending

def empty : Pending := ⟨.empty⟩

def record (p : Pending) (path : Path) (change : Change) : Pending :=
  let set := (p.sets.get? path.route).getD (.empty path)
  ⟨p.sets.insert path.route (set.record change)⟩

def get? (p : Pending) (path : Path) : Option ChangeSet :=
  (p.sets.get? path.route).filter fun set => !set.isEmpty

def isPending (p : Pending) (path : Path) : Bool := (p.get? path).isSome

def discard (p : Pending) (path : Path) : Option ChangeSet × Pending :=
  (p.sets.get? path.route, ⟨p.sets.erase path.route⟩)

def size (p : Pending) : Nat := p.sets.values.foldr (fun set count => set.size + count) 0

def affectedFiles (p : Pending) : List Path :=
  (p.sets.values.filter fun set => !set.isEmpty).map ChangeSet.path

def overlay (p : Pending) (d : Disk) (path : Path) : Except Failure (Option (Table Nat String)) :=
  match p.get? path with
  | none => .ok none
  | some set => do
    let text ← d.readText path
    .ok (some (set.overlay (Text.lines text)))

section Rename

def renameLines (rule : List Char → Option (List Char)) (path : Path) (first : Nat) (p : Pending) :
    List String → Nat × Pending
  | [] => (0, p)
  | line :: rest =>
    match rule line.toList with
    | none => renameLines rule path (first + 1) p rest
    | some new =>
      let change := Change.replacing first (some line) (String.ofList new)
      let (edits, p) := renameLines rule path (first + 1) (p.record path change) rest
      (edits + 1, p)

def renameWith (rule : List Char → Option (List Char)) (d : Disk) (p : Pending) :
    List Path → RenameReport × Pending
  | [] => (.empty, p)
  | path :: rest =>
    match d.readText path with
    | .error failure =>
      let (report, p) := renameWith rule d p rest
      ({ report with failed := (path, failure) :: report.failed }, p)
    | .ok text =>
      let (edits, p) := renameLines rule path 0 p (Text.lines text)
      let (report, p) := renameWith rule d p rest
      let files := if edits = 0 then report.files else path :: report.files
      ({ report with edits := edits + report.edits, files }, p)

def rename (whole : Bool) (old new : String) (d : Disk) (p : Pending) (paths : List Path) :
    RenameReport × Pending :=
  if old.isEmpty then (.empty, p)
  else renameWith (Text.replace? whole old.toList new.toList) d p paths

end Rename

section Resolve

variable {σ : Type}

def commitFile (p : Pending) (d : Disk) (path : Path) : Except Failure (Pending × Disk) :=
  match p.sets.get? path.route with
  | none => .ok (p, d)
  | some set => do
    let text ← d.readText path
    let d ← d.writeLocked path (String.join (set.apply (Text.lines text)))
    .ok (⟨p.sets.erase path.route⟩, d)

structure Run (σ : Type) where
  pending : Pending
  disk : Disk
  policy : σ

def request (p : Pending) (path : Path) (affected : Nat) : ConfirmRequest :=
  ⟨path, ((p.get? path).map ChangeSet.size).getD 0, affected⟩

def resolve (policy : Policy σ) (run : Run σ) (path : Path) : Except Failure Bool × Run σ :=
  if !run.pending.isPending path then (.ok false, run)
  else
    let request := run.pending.request path run.pending.affectedFiles.length
    let (answer, state) := policy.ask run.policy request
    let run := { run with policy := state }
    if !answer.accept then (.ok false, run)
    else
      match run.pending.commitFile run.disk path with
      | .ok (pending, disk) => (.ok true, { run with pending, disk })
      | .error failure => (.error failure, run)

-- Goes through the files in order; an answer given for all stands for the later ones.
def resolveEach (policy : Policy σ) (affected : Nat) (standing : Option Bool) (run : Run σ) :
    List Path → ResolveReport × Run σ
  | [] => (.empty, run)
  | path :: rest =>
    let (accept, standing, run) :=
      match standing with
      | some accept => (accept, some accept, run)
      | none =>
        let (answer, state) := policy.ask run.policy (run.pending.request path affected)
        (answer.accept, if answer.forAll then some answer.accept else none,
          { run with policy := state })
    if !accept then
      let (report, run) := resolveEach policy affected standing run rest
      ({ report with rejected := path :: report.rejected }, run)
    else
      match run.pending.commitFile run.disk path with
      | .ok (pending, disk) =>
        let (report, run) :=
          resolveEach policy affected standing { run with pending, disk } rest
        ({ report with committed := path :: report.committed }, run)
      | .error failure =>
        let (report, run) := resolveEach policy affected standing run rest
        ({ report with failed := (path, failure) :: report.failed }, run)

def resolveAll (policy : Policy σ) (run : Run σ) : ResolveReport × Run σ :=
  let files := run.pending.affectedFiles
  resolveEach policy files.length none run files

end Resolve

end Pending

end LineLedger
