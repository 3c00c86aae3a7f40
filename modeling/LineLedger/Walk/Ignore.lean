import LineLedger.Text.Blank
import LineLedger.Text.Lines
import LineLedger.Walk
import LineLedger.Walk.Glob

set_option autoImplicit false

namespace LineLedger

inductive Verdict where
  | undecided
  | ignored
  | kept
deriving DecidableEq, Repr

def Verdict.or (first second : Verdict) : Verdict :=
  match first with
  | .undecided => second
  | _ => first

structure IgnoreRule where
  pattern : Glob.Pattern
  keeps : Bool
  onlyFolders : Bool

namespace IgnoreRule

-- A pattern without a slash fits at any depth. One that ends in a double star fits what is below,
-- and not the directory itself.
def globText (isAnchored : Bool) (text : List Char) : List Char :=
  let startsAnywhere := ['*', '*', '/'].isPrefixOf text || text = ['*', '*']
  let text :=
    if !isAnchored && !text.contains '/' && !startsAnywhere then '*' :: '*' :: '/' :: text
    else text
  if ['/', '*', '*'].isSuffixOf text then text ++ ['/', '*'] else text

-- The rule on a line, trimmed at its end unless an escaped blank stands there.
def ofLine? (line : List Char) : Option IgnoreRule :=
  let line := if ['\\', ' '].isSuffixOf line then line else Text.trimEnd line
  if line.isEmpty || line.head? = some '#' then none
  else
    let isEscaped := ['\\', '!'].isPrefixOf line || ['\\', '#'].isPrefixOf line
    let keeps := !isEscaped && line.head? = some '!'
    let line := if isEscaped || keeps then line.drop 1 else line
    let isAnchored := line.head? = some '/'
    let line := if isAnchored && !isEscaped then line.drop 1 else line
    let onlyFolders := line.getLast? = some '/'
    let line := if onlyFolders then line.dropLast else line
    let line := if onlyFolders && line.getLast? = some '\\' then line.dropLast else line
    (Glob.parse? (globText isAnchored line)).map fun pattern => ⟨pattern, keeps, onlyFolders⟩

def fits (rule : IgnoreRule) (path : String) (isFolder : Bool) : Bool :=
  (!rule.onlyFolders || isFolder) && Glob.fits rule.pattern path

def verdict (rules : List IgnoreRule) (path : String) (isFolder : Bool) : Verdict :=
  match rules.reverse.find? fun rule => rule.fits path isFolder with
  | some rule => if rule.keeps then .kept else .ignored
  | none => .undecided

end IgnoreRule

namespace Content

def splitBytes : List UInt8 → List (List UInt8)
  | [] => []
  | b :: rest =>
    if b = 10 then [] :: splitBytes rest
    else
      match splitBytes rest with
      | [] => [[b]]
      | line :: lines => (b :: line) :: lines

def textLines : Content → List (List Char)
  | .text whole => (Text.lines whole).map fun line => line.toList
  | .bytes raw =>
    let decoded := (splitBytes raw).map fun line => String.fromUTF8? ⟨line.toArray⟩
    (decoded.takeWhile Option.isSome).filterMap fun line => line.map String.toList

end Content

namespace Disk

def dropBreak (line : List Char) : List Char :=
  match line.reverse with
  | '\n' :: '\r' :: rest => rest.reverse
  | '\n' :: rest => rest.reverse
  | _ => line

def dropMark (line : List Char) : List Char := line.dropWhile (·.toNat = 0xFEFF)

def ignoreRules (d : Disk) (file : FullName) : List IgnoreRule :=
  match d.node? file with
  | some (.file content _) =>
    match content.textLines with
    | [] => []
    | first :: rest =>
      ((dropMark (dropBreak first)) :: rest.map dropBreak).filterMap IgnoreRule.ofLine?
  | _ => []

def relativeText (folder name : FullName) : String := "/".intercalate (name.drop folder.length)

def fileVerdict (d : Disk) (file folder name : FullName) (isFolder : Bool) : Verdict :=
  IgnoreRule.verdict (d.ignoreRules file) (relativeText folder name) isFolder

def foldersAround (name : FullName) : List FullName :=
  (List.range name.length).reverse.map fun depth => name.take depth

def firstVerdict (verdicts : List Verdict) : Verdict := verdicts.foldr Verdict.or .undecided

-- The user's own rules are about paths from the working directory.
def userVerdict (d : Disk) (name : FullName) (isFolder : Bool) : Verdict :=
  match d.locate ((d.settings.joinName "git").joinName "ignore") with
  | .ok file =>
    let folder := if d.working.isPrefixOf name then d.working else []
    d.fileVerdict file folder name isFolder
  | .error _ => .undecided

-- Rules in `.ignore` files come first, those of inner directories before those of outer ones.
def verdict (d : Disk) (name : FullName) (isFolder : Bool) : Verdict :=
  let fromFiles (file : List String) : Verdict :=
    firstVerdict ((foldersAround name).map fun folder =>
      d.fileVerdict (folder ++ file) folder name isFolder)
  firstVerdict [
    fromFiles [".ignore"],
    fromFiles [".gitignore"],
    fromFiles [".git", "info", "exclude"],
    d.userVerdict name isFolder]

def isHidden (name : FullName) : Bool := (name.getLast?.getD "").toList.head? = some '.'

def isLeftOut (d : Disk) (name : FullName) (isFolder : Bool) : Bool :=
  match d.verdict name isFolder with
  | .ignored => true
  | .kept => false
  | .undecided => isHidden name

def isReached (d : Disk) (root : FullName) (name : FullName) (isFolder : Bool) : Bool :=
  (List.range (name.length - root.length)).all fun depth =>
    let upTo := name.take (root.length + depth + 1)
    !d.isLeftOut upTo (if upTo = name then isFolder else true)

def filesInSight (d : Disk) (root : Path) : List Path :=
  match d.locate root with
  | .error _ => []
  | .ok folder =>
    (d.below folder).filterMap fun (name, node) =>
      match node with
      | .folder => none
      | .file _ _ =>
        if d.isReached folder name false then
          some ((name.drop folder.length).foldl Path.joinName root)
        else none

instance : Walker := ⟨filesInSight⟩

end Disk

end LineLedger
