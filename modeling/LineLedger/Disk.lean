import LineLedger.Failure
import LineLedger.FileTree

set_option autoImplicit false

namespace LineLedger

structure Disk where
  tree : FileTree
  working : FullName
  -- The directory of the user's own settings.
  settings : Path
deriving DecidableEq

namespace Disk

def node? (d : Disk) (name : FullName) : Option Node := d.tree.node? name

def below (d : Disk) (name : FullName) : List (FullName × Node) := d.tree.below name

-- Longer names are refused, by their bytes.
def longestName : Nat := 255

def longestPath : Nat := 4095

-- Follows the segments of a path. Every step needs a directory to stand in; only the last name may
-- be missing.
def follow (d : Disk) (here : FullName) : List String → Except Fault FullName
  | [] => .ok here
  | segment :: rest =>
    match d.node? here with
    | none => .error .missing
    | some (.file _ _) => .error .notDirectory
    | some .folder =>
      if segment = "" || segment = "." then d.follow here rest
      else if segment = ".." then d.follow here.dropLast rest
      else if segment.utf8ByteSize > longestName then .error .nameTooLong
      else d.follow (here ++ [segment]) rest

def holdsNull (p : Path) : Bool := p.text.toList.contains '\x00'

def acceptSpelling (p : Path) : Except Fault Unit :=
  if holdsNull p then .error .holdsNull
  else if p.text.isEmpty then .error .missing
  else if p.text.utf8ByteSize > longestPath then .error .nameTooLong
  else .ok ()

def origin (d : Disk) (p : Path) : FullName := if p.isAbsolute then [] else d.working

def locate (d : Disk) (p : Path) : Except Fault FullName := do
  acceptSpelling p
  d.follow (d.origin p) p.segments

structure Entry where
  folder : FullName
  name : String
deriving DecidableEq, Repr

namespace Entry

def fullName (e : Entry) : FullName := e.folder ++ [e.name]

-- The root and the dots have no name of their own.
def isNamed (e : Entry) : Bool := e.name ≠ "" && e.name ≠ "." && e.name ≠ ".."

end Entry

def splitLast (segments : List String) : List String × String :=
  match segments.reverse.dropWhile (· = "") with
  | [] => ([], "")
  | last :: before => (before.reverse, last)

def entry (d : Disk) (p : Path) : Except Fault Entry := do
  acceptSpelling p
  let (before, name) := splitLast p.segments
  let folder ← d.follow (d.origin p) before
  match d.node? folder with
  | none => .error .missing
  | some (.file _ _) => .error .notDirectory
  | some .folder => .ok ⟨folder, name⟩

def lookUp (d : Disk) (e : Entry) : Except Fault (Option Node) :=
  if e.name.utf8ByteSize > longestName then .error .nameTooLong else .ok (d.node? e.fullName)

def find (d : Disk) (p : Path) : Except Fault (FullName × Node) := do
  let name ← d.locate p
  match d.node? name with
  | some node => .ok (name, node)
  | none => .error .missing

def isFile (d : Disk) (p : Path) : Bool :=
  match d.find p with
  | .ok (_, .file _ _) => true
  | _ => false

def isFolder (d : Disk) (p : Path) : Bool :=
  match d.find p with
  | .ok (_, .folder) => true
  | _ => false

def holds (d : Disk) (p : Path) : Bool := d.isFile p || d.isFolder p

def readContent (d : Disk) (p : Path) : Except Fault Content := do
  match ← d.find p with
  | (_, .file content _) => .ok content
  | (_, .folder) => .error .isDirectory

def setNode (d : Disk) (name : FullName) (node : Node) : Disk :=
  { d with tree := d.tree.put name node }

def dropNode (d : Disk) (name : FullName) : Disk :=
  { d with tree := d.tree.prune name }

def endsInSlash (p : Path) : Bool := p.text.toList.getLast? = some '/'

def openForWriting (d : Disk) (p : Path) : Except Fault (FullName × Content × Bool) := do
  let e ← d.entry p
  if !e.isNamed || endsInSlash p then .error .isDirectory
  else
    match ← d.lookUp e with
    | some .folder => .error .isDirectory
    | some (.file content isLocked) => .ok (e.fullName, content, isLocked)
    | none => .ok (e.fullName, .text "", false)

-- Writes a whole file; a lock that another program holds does not hinder it.
def overwrite (d : Disk) (p : Path) (text : String) : Except Fault Disk := do
  let (name, _, isLocked) ← d.openForWriting p
  .ok (d.setNode name (.file (.text text) isLocked))

def readText (d : Disk) (p : Path) : Except Failure String :=
  match d.readContent p with
  | .error fault => .error (.unreadable p fault)
  | .ok (.bytes _) => .error (.notText p)
  | .ok (.text text) => .ok text

-- Writes a whole file under its lock. If another program holds the lock the file is left as it is.
def writeLocked (d : Disk) (p : Path) (text : String) : Except Failure Disk :=
  match d.openForWriting p with
  | .error fault => .error (.unwritable p fault)
  | .ok (name, _, isLocked) =>
    if isLocked then .error (.locked p)
    else .ok (d.setNode name (.file (.text text) false))

def setLock (d : Disk) (p : Path) (isLocked : Bool) : Disk :=
  match d.find p with
  | .ok (name, .file content _) => d.setNode name (.file content isLocked)
  | _ => d

def remove (d : Disk) (p : Path) : Disk :=
  match d.find p with
  | .ok (name, .file _ _) => d.dropNode name
  | _ => d

-- What is moved comes in order, so that every folder is there before what stands in it.
def moveFrom (d : Disk) (source target : FullName) (moved : List (FullName × Node)) : Disk :=
  moved.foldl (fun d (name, node) => d.setNode (target ++ name.drop source.length) node)
    (d.dropNode source)

def replaceEntry (d : Disk) (here there : FullName) (node : Node) : Except Fault Disk :=
  let moved := d.moveFrom here there ((here, node) :: d.below here)
  match d.node? there with
  | none => .ok moved
  | some .folder =>
    if node ≠ .folder then .error .isDirectory
    else if (d.below there).isEmpty then .ok moved
    else .error .notEmpty
  | some (.file _ _) => if node = .folder then .error .notDirectory else .ok moved

def rename (d : Disk) (source target : Path) : Except Fault Disk := do
  if holdsNull target then .error .holdsNull
  else
    let here ← d.entry source
    let there ← d.entry target
    if !here.isNamed || !there.isNamed then .error .busy
    else
      match ← d.lookUp here with
      | none => .error .missing
      | some node => do
        let _ ← d.lookUp there
        let (here, there) := (here.fullName, there.fullName)
        if node ≠ .folder && (endsInSlash source || endsInSlash target) then
          .error .notDirectory
        else if here = there then .ok d
        else if here.isPrefixOf there then .error .invalid
        else if there.isPrefixOf here then .error .notEmpty
        else d.replaceEntry here there node

def createFolder (d : Disk) (p : Path) : Except Fault Disk := do
  let e ← d.entry p
  if !e.isNamed then .error .alreadyExists
  else
    match ← d.lookUp e with
    | some _ => .error .alreadyExists
    | none => .ok (d.setNode e.fullName .folder)

-- Creates the folders around it first. Those that were made stay where a later one fails; `depth`
-- bounds how many of them are tried.
def createFoldersWithin (d : Disk) (p : Path) : Nat → Except Fault Unit × Disk
  | 0 => (.ok (), d)
  | depth + 1 =>
    if p.text.isEmpty then (.ok (), d)
    else
      match d.createFolder p with
      | .ok d => (.ok (), d)
      | .error .missing =>
        let (around, d) := match p.parent? with
          | some parent => d.createFoldersWithin parent depth
          | none => (.error (.other "failed to create whole tree"), d)
        match around with
        | .error fault => (.error fault, d)
        | .ok () =>
          match d.createFolder p with
          | .ok d => (.ok (), d)
          | .error fault => (if d.isFolder p then .ok () else .error fault, d)
      | .error fault => (if d.isFolder p then .ok () else .error fault, d)

def createFolders (d : Disk) (p : Path) : Except Fault Unit × Disk :=
  d.createFoldersWithin p (p.segments.length + 1)

end Disk

end LineLedger
