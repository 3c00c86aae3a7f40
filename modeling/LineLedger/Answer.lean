import LineLedger.Preview

set_option autoImplicit false

namespace LineLedger

inductive Colour where
  | green
  | red
  | yellow
deriving DecidableEq, Repr

namespace Colour

def code : Colour → String
  | .green => "32"
  | .red => "31"
  | .yellow => "33"

def paint (c : Colour) (inColour : Bool) (text : String) : String :=
  if inColour then "\x1b[" ++ c.code ++ "m" ++ text ++ "\x1b[0m" else text

end Colour

namespace ChangeKind

def sign : ChangeKind → String
  | .insert => "+"
  | .delete => "-"
  | .edit => "~"

def colour : ChangeKind → Colour
  | .insert => .green
  | .delete => .red
  | .edit => .yellow

end ChangeKind

def column (width : Nat) (text : String) : String :=
  text ++ String.ofList (List.replicate (width - text.length) ' ')

namespace Record

def inColumns (r : Record) : String :=
  column 24 r.location ++ " " ++ column 28 r.tagText ++ " " ++ r.text

end Record

namespace Row

def inColumns (inColour : Bool) (r : Row) : String :=
  match r.pending with
  | some kind =>
    kind.colour.paint inColour kind.sign ++ " " ++ kind.colour.paint inColour r.record.inColumns
  | none => "  " ++ r.record.inColumns

end Row

def showLines (lines : List String) : String := String.join (lines.map (· ++ "\n"))

def showFile (path : Path) (lines : List String) : String :=
  "== " ++ path.text ++ " ==\n" ++ showLines lines ++ "\n"

def pathsToJson (paths : List Path) : Json := Json.ofTexts (paths.map Path.text)

def failuresToJson (failed : Failures) : Json :=
  .array (failed.map fun (path, failure) =>
    Json.ofMembers [("path", Json.ofText path.text), ("error", Json.ofText failure.message)])

def recordsToJson (records : List Record) : Json := .array (records.map Record.toJson)

namespace ScanReport

def toText (r : ScanReport) : String :=
  String.join (r.files.map fun (path, records) => showFile path (records.map Record.inColumns)) ++
    toString r.files.length ++ " file(s), " ++ toString r.recordCount ++ " record(s)" ++
    (if r.failed.isEmpty then ""
    else ", " ++ toString r.failed.length ++ " failed:" ++ ResolveReport.failureLines r.failed) ++
    "\n"

def toJson (r : ScanReport) : Json :=
  Json.ofMembers [
    ("files", .array (r.files.map fun (path, records) =>
      Json.ofMembers [("path", Json.ofText path.text), ("records", recordsToJson records)])),
    ("failed", failuresToJson r.failed)]

end ScanReport

namespace Conclusion

def toText : Conclusion → String
  | .tried unreadable => "Dry run: nothing written" ++ ResolveReport.failureLines unreadable
  | .resolved report => if report.isEmpty then "Nothing to commit" else report.summary

def members : Conclusion → List (String × Json)
  | .tried unreadable => [("dry_run", .bool true), ("failed", failuresToJson unreadable)]
  | .resolved report => [
      ("dry_run", .bool false),
      ("committed", pathsToJson report.committed),
      ("rejected", pathsToJson report.rejected),
      ("failed", failuresToJson report.failed)]

end Conclusion

namespace EditOutcome

def toText (inColour : Bool) (o : EditOutcome) : String :=
  String.join (o.preview.map fun (path, rows) =>
      showFile path (rows.map (Row.inColumns inColour))) ++
    o.conclusion.toText ++ "\n"

def toJson (o : EditOutcome) : Json :=
  Json.ofMembers (
    ("preview", .array (o.preview.map fun (path, rows) =>
      Json.ofMembers [
        ("path", Json.ofText path.text), ("rows", .array (rows.map Row.toJson))])) ::
    o.conclusion.members)

end EditOutcome

inductive Answer where
  | records (records : List Record)
  | scan (report : ScanReport)
  | extensions (found : List (String × Bool))
  | edit (outcome : EditOutcome)
deriving DecidableEq, Repr

inductive OutputFormat where
  | text
  | json
deriving DecidableEq, Repr

namespace Answer

def toText (inColour : Bool) : Answer → String
  | .records rs => showLines (rs.map Record.inColumns)
  | .scan report => report.toText
  | .extensions found =>
    showLines (found.map fun (ext, isAccepted) =>
      ext ++ if isAccepted then "" else "  (not accepted)")
  | .edit outcome => outcome.toText inColour

def toJson : Answer → Json
  | .records rs => recordsToJson rs
  | .scan report => report.toJson
  | .extensions found => Json.ofTexts (found.map Prod.fst)
  | .edit outcome => outcome.toJson

def render (format : OutputFormat) (inColour : Bool) (a : Answer) : String :=
  match format with
  | .text => a.toText inColour
  | .json => a.toJson.toPretty ++ "\n"

end Answer

end LineLedger
