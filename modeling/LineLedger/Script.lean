import LineLedger.Interchange
import LineLedger.Pending

set_option autoImplicit false

namespace LineLedger

structure ScriptEntry where
  file : Path
  line : Nat
  kind : ChangeKind
  content : Option String
deriving DecidableEq, Repr

namespace ScriptEntry

def problem? (e : ScriptEntry) : Option EntryProblem :=
  if e.line = 0 then some .lineZero
  else if e.kind ≠ .delete && e.content.isNone then some .noContent
  else none

def anchor (base : Path) (e : ScriptEntry) : ScriptEntry := { e with file := base.join e.file }

def ofJson? (v : Json) : Option ScriptEntry := do
  let f ← Json.Fields.of? ["file", "line", "kind", "content"] v
  let file ← f.required? "file" Json.text?
  let line ← f.required? "line" Json.nat?
  let kind ← f.required? "kind" ChangeKind.ofJson?
  let content ← f.withDefault? "content" none (Json.optional? Json.text?)
  some ⟨⟨file⟩, line, kind, content⟩

def change (e : ScriptEntry) : Change := Change.make (e.line - 1) none e.content e.kind

end ScriptEntry

structure Script where
  entries : List ScriptEntry
deriving DecidableEq, Repr

namespace Script

def entriesOfJson? : Json → Option (List ScriptEntry)
  | .array items => items.mapM ScriptEntry.ofJson?
  | _ => none

def check (number : Nat) : List ScriptEntry → Except ScriptProblem Unit
  | [] => .ok ()
  | e :: rest =>
    match e.problem? with
    | some problem => .error (.entry number problem)
    | none => check (number + 1) rest

def ofEntries (base : Path) (entries : List ScriptEntry) : Except ScriptProblem Script :=
  match check 1 entries with
  | .ok () => .ok ⟨entries.map (·.anchor base)⟩
  | .error problem => .error problem

def parse (text : String) (base : Path) : Except ScriptProblem Script :=
  match (Json.read? text).bind entriesOfJson? with
  | some entries => ofEntries base entries
  | none => .error .malformed

def base (path : Path) : Path := path.parent?.getD ⟨"."⟩

def folder (path : Path) : Path :=
  match path.parent? with
  | some parent => if parent.text.isEmpty then ⟨"."⟩ else parent
  | none => ⟨"."⟩

def load (d : Disk) (path : Path) : Except Failure Script := do
  let text ← d.readText path
  match parse text (base path) with
  | .ok script => .ok script
  | .error problem => .error (.script problem)

def recordInto (s : Script) (p : Pending) : Pending :=
  s.entries.foldl (fun p e => p.record e.file e.change) p

def distinctFrom (seen : List Route) : List Path → List Path
  | [] => []
  | path :: rest =>
    if seen.contains path.route then distinctFrom seen rest
    else path :: distinctFrom (path.route :: seen) rest

def files (s : Script) : List Path := distinctFrom [] (s.entries.map ScriptEntry.file)

def size (s : Script) : Nat := s.entries.length

def isEmpty (s : Script) : Bool := s.entries.isEmpty

end Script

end LineLedger
