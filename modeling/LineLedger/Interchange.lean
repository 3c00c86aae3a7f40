import LineLedger.Json.Fields
import LineLedger.Language
import LineLedger.Row
import LineLedger.Settings

set_option autoImplicit false

namespace LineLedger

open Json (ofText ofNat ofOption)

namespace ChangeKind

def all : List ChangeKind := [.insert, .delete, .edit]

def ofName? (name : String) : Option ChangeKind := all.find? (·.name == name)

def toJson (k : ChangeKind) : Json := ofText k.name

def ofJson? (v : Json) : Option ChangeKind := Json.constant? ofName? v

end ChangeKind

namespace Language

def toJson (l : Language) : Json := ofText l.name

def ofJson? (v : Json) : Option Language :=
  Json.constant? (fun name => all.find? (·.name == name)) v

end Language

namespace ConfirmMode

def toJson (m : ConfirmMode) : Json := Json.ofText m.name

def ofJson? (v : Json) : Option ConfirmMode :=
  Json.constant? (fun name => all.find? (·.name == name)) v

end ConfirmMode

namespace Record

def fieldNames : List String :=
  ["source_location", "line_number", "extension", "type_tag", "literal_line"]

def members (r : Record) : List (String × Json) :=
  [("source_location", ofText r.location), ("line_number", ofNat r.line)] ++
    (r.extension.map fun ext => ("extension", ofText ext)).toList ++
    (r.tag.map fun tag => ("type_tag", ofText tag)).toList ++
    [("literal_line", ofText r.text)]

def toJson (r : Record) : Json := Json.ofMembers r.members

def ofFields? (f : Json.Fields) : Option Record := do
  let location ← f.required? "source_location" Json.text?
  let line ← f.required? "line_number" Json.nat?
  let extension ← f.optional? "extension" Json.text?
  let tag ← f.optional? "type_tag" Json.text?
  let text ← f.required? "literal_line" Json.text?
  some ⟨location, line, extension, tag, text⟩

def ofJson? (v : Json) : Option Record := (Json.Fields.of? fieldNames v).bind ofFields?

end Record

namespace Json

-- Numbers from here on are too large for a floating-point number.
def floatBound : Nat := Nat.pow 2 1024 - Nat.pow 2 970

def digitsValue (digits : List Char) : Nat :=
  digits.foldl (fun n c => 10 * n + (c.toNat - '0'.toNat)) 0

def fitsFloat (spelling : List Char) : Bool :=
  let magnitude := spelling.dropWhile (· = '-')
  let whole := magnitude.takeWhile Char.isDigit
  let fraction :=
    match magnitude.drop whole.length with
    | '.' :: rest => rest.takeWhile Char.isDigit
    | _ => []
  let exponent := (magnitude.dropWhile fun c => c ≠ 'e' && c ≠ 'E').drop 1
  let isNegative := exponent.head? = some '-'
  let scale := digitsValue (exponent.filter Char.isDigit)
  let digits := (whole ++ fraction).dropWhile (· = '0')
  let value := digitsValue digits
  if value = 0 then true
  else if isNegative then
    if scale > digits.length then true
    else value < floatBound * Nat.pow 10 (scale + fraction.length)
  else if scale > 400 + fraction.length then false
  else value * Nat.pow 10 scale < floatBound * Nat.pow 10 fraction.length

mutual

def isSound (depth : Nat) : Json → Bool
  | .null => true
  | .bool _ => true
  | .number spelling => fitsFloat spelling
  | .string spelling => (unescape spelling).isSome
  | .array items => depth ≠ 0 && areSound (depth - 1) items
  | .object members => depth ≠ 0 && areSoundMembers (depth - 1) members

def areSound (depth : Nat) : List Json → Bool
  | [] => true
  | v :: rest => isSound depth v && areSound depth rest

def areSoundMembers (depth : Nat) : List (List Char × Json) → Bool
  | [] => true
  | (key, v) :: rest => (unescape key).isSome && isSound depth v && areSoundMembers depth rest

end

end Json

namespace Row

def deepest : Nat := 127

def toJson (r : Row) : Json :=
  Json.ofMembers (r.record.members ++
    (r.pending.map fun kind => ("pending", kind.toJson)).toList)

-- The record's fields stand beside the kind of change, so the other members are read too and
-- have to be sound.
def ofJson? : Json → Option Row
  | .object members => do
    let members ← members.mapM fun (key, v) => (Json.unescape key).map (String.ofList ·, v)
    let (own, others) := members.partition fun (key, _) => key = "pending"
    let pending ← match own with
      | [] => some none
      | [(_, v)] => Json.optional? ChangeKind.ofJson? v
      | _ => none
    if !others.all fun (_, v) => Json.isSound (deepest - 1) v then none
    else
      let known := others.filter fun (key, _) => Record.fieldNames.contains key
      if !(known.map Prod.fst).Nodup then none
      else
        let record ← Record.ofFields? ⟨false, known⟩
        some ⟨record, pending⟩
  | _ => none

end Row

namespace Change

def fieldNames : List String := ["line_number", "old_content", "new_content", "kind"]

def toJson (c : Change) : Json :=
  Json.ofMembers [
    ("line_number", ofNat c.line),
    ("old_content", ofOption ofText c.old),
    ("new_content", ofOption ofText c.new),
    ("kind", c.kind.toJson)]

def ofJson? (v : Json) : Option Change := do
  let f ← Json.Fields.of? fieldNames v
  let line ← f.required? "line_number" Json.nat?
  let old ← f.optional? "old_content" Json.text?
  let new ← f.optional? "new_content" Json.text?
  let kind ← f.required? "kind" ChangeKind.ofJson?
  some ⟨line, old, new, kind⟩

end Change

namespace ChangeSet

def changesToJson (changes : Table Nat Change) : Json :=
  .object (changes.entries.map fun (line, change) => (Nat.toDigits 10 line, change.toJson))

-- Line numbers are keys, so they are spelled between quotes, without escapes.
def changesOfJson? : Json → Option (Table Nat Change)
  | .object members => do
    let entries ← members.mapM fun (key, v) => do
      let line ← Json.natural? key
      let change ← Change.ofJson? v
      some (line, change)
    some (Table.ofList entries)
  | _ => none

def toJson (set : ChangeSet) : Json :=
  Json.ofMembers [("file_path", ofText set.path.text), ("changes", changesToJson set.changes)]

def ofJson? (v : Json) : Option ChangeSet := do
  let f ← Json.Fields.of? ["file_path", "changes"] v
  let path ← f.required? "file_path" Json.text?
  let changes ← f.required? "changes" changesOfJson?
  some ⟨⟨path⟩, changes⟩

end ChangeSet

namespace Settings

def overridesToJson (overrides : Table String String) : Json :=
  Json.ofMembers (overrides.entries.map fun (ext, name) => (ext, ofText name))

def overridesOfJson? : Json → Option (Table String String)
  | .object members => do
    let entries ← members.mapM fun (key, v) => do
      let ext ← Json.unescape key
      let name ← v.text?
      some (String.ofList ext, name)
    some (Table.ofList entries)
  | _ => none

def loggingOfJson? (v : Json) : Option String := do
  let f ← Json.Fields.of? ["level"] v
  f.withDefault? "level" defaultLogLevel Json.text?

def toJson (s : Settings) : Json :=
  Json.ofMembers [
    ("extensions", Json.ofTexts s.extensions),
    ("confirm", s.confirm.toJson),
    ("overrides", overridesToJson s.overrides),
    ("logging", Json.ofMembers [("level", ofText s.logLevel)])]

def ofJson? (v : Json) : Option Settings := do
  let f ← Json.Fields.of? ["extensions", "confirm", "overrides", "logging"] v
  let extensions ← f.withDefault? "extensions" defaultExtensions Json.texts?
  let confirm ← f.withDefault? "confirm" .perFile ConfirmMode.ofJson?
  let overrides ← f.withDefault? "overrides" .empty overridesOfJson?
  let logLevel ← f.withDefault? "logging" defaultLogLevel loggingOfJson?
  some ⟨extensions, confirm, overrides, logLevel⟩

end Settings

end LineLedger
