import LineLedger.Invocation

set_option autoImplicit false

namespace LineLedger.Program

def spelling (name : FullName) : String := "/" ++ "/".intercalate name

def passed (here : FullName) : List String → List FullName
  | [] => [here]
  | segment :: rest =>
    let next :=
      if segment = "" || segment = "." then here
      else if segment = ".." then here.dropLast
      else here ++ [segment]
    here :: passed next rest

def passedBy (d : Disk) (p : Path) : List FullName :=
  passed (if p.isAbsolute then [] else d.working) p.segments

def isLocked (file : String) : IO Bool := do
  let handle ← IO.FS.Handle.mk file .read
  let isFree ← handle.tryLock
  if isFree then handle.unlock
  return !isFree

def takeIn (d : Disk) (name : FullName) : IO Disk := do
  let place := (← IO.currentDir) / spelling name
  if ← place.isDir then return d.setNode name .folder
  try
    let bytes ← IO.FS.readBinFile place
    return d.setNode name (.file (Content.ofBytes bytes) (← isLocked (spelling name)))
  catch _ => return d

def ignoreFiles : List FullName :=
  [[".ignore"], [".gitignore"], [".git"], [".git", "info"], [".git", "info", "exclude"]]

def takeInPath (d : Disk) (p : Path) : IO Disk := do
  let folders := passedBy d p
  let names := folders ++ folders.flatMap fun folder => ignoreFiles.map (folder ++ ·)
  names.foldlM takeIn d

partial def takeInTree (d : Disk) (name : FullName) : IO Disk := do
  let place := (← IO.currentDir) / spelling name
  if !(← place.isDir) then takeIn d name
  else
    (← place.readDir).foldlM (fun d entry => do
      match (← entry.path.symlinkMetadata).type with
      | .symlink => return d
      | _ => takeInTree d (name ++ [entry.fileName])) (d.setNode name .folder)

def takeInFolder (d : Disk) (p : Path) : IO Disk := do
  let d ← takeInPath d p
  match (passedBy d p).getLast? with
  | some name => takeInTree d name
  | none => return d

def takeInScript (d : Disk) (p : Path) : IO Disk := do
  let d ← takeInPath d p
  match Script.load d p with
  | .ok script => script.files.foldlM takeInPath d
  | .error _ => return d

def takeInCommand (d : Disk) : Command → IO Disk
  | .classify file => takeInPath d file
  | .scan folder _ => takeInFolder d folder
  | .extensions folder => takeInFolder d folder
  | .apply script _ _ => takeInScript d script
  | .rename _ _ folder _ _ _ _ => takeInFolder d folder

def settingsFolder : IO Path := do
  match ← IO.getEnv "XDG_CONFIG_HOME" with
  | some folder => if Path.isAbsolute ⟨folder⟩ then return ⟨folder⟩
  | none => pure ()
  return (Path.mk ((← IO.getEnv "HOME").getD "")).joinName ".config"

def diskFor (i : Invocation) : IO Disk := do
  let working := (Path.segments ⟨(← IO.currentDir).toString⟩).filter (· ≠ "")
  let settings ← settingsFolder
  let above := (List.range working.length).map fun depth => working.take (depth + 1)
  let d ← above.foldlM takeIn (⟨.empty, working, settings⟩ : Disk)
  let userIgnore := (settings.joinName "git").joinName "ignore"
  let files := [Settings.localFile, Settings.userFile d, userIgnore] ++ i.config.toList
  let d ← files.foldlM takeInPath d
  takeInCommand d i.command

def store (name : FullName) (text : String) : IO Unit := do
  let handle ← IO.FS.Handle.mk (spelling name) .readWrite
  if !(← handle.tryLock) then
    throw (IO.userError (Failure.locked ⟨spelling name⟩).message)
  handle.truncate
  handle.putStr text
  handle.flush
  handle.unlock

def storeChanges (before after : Disk) : IO Unit :=
  after.tree.nodes.entries.forM fun (name, node) =>
    match node with
    | .file (.text text) _ => if before.node? name = some node then pure () else store name text
    | _ => pure ()

def run (i : Invocation) : IO UInt32 := do
  let before ← diskFor i
  let (result, after) := i.run (← (← IO.getStdout).isTty) before
  storeChanges before after
  match result with
  | .ok output =>
    IO.print output
    return 0
  | .error failure =>
    IO.eprintln ("Error: " ++ failure.message)
    return failure.exitCode.toUInt32

end LineLedger.Program

open LineLedger in
def main (arguments : List String) : IO UInt32 := do
  match Invocation.ofArguments (← IO.getEnv "LINETYPE_CONFIG") arguments with
  | .ok i => Program.run i
  | .error refusal =>
    if refusal.exitCode = 0 then IO.println refusal.message else IO.eprintln refusal.message
    return refusal.exitCode.toUInt32
