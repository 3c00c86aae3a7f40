import LineLedger.Answer
import LineLedger.Change
import LineLedger.Classification
import LineLedger.Classifier
import LineLedger.Command
import LineLedger.Confirm
import LineLedger.Disk
import LineLedger.Failure
import LineLedger.FileTree
import LineLedger.Interchange
import LineLedger.Invocation
import LineLedger.Invocation.Flag
import LineLedger.Invocation.Reading
import LineLedger.Json.Basic
import LineLedger.Json.Fields
import LineLedger.Json.Print
import LineLedger.Json.Read
import LineLedger.Json.Token
import LineLedger.Language
import LineLedger.Main
import LineLedger.Nesting
import LineLedger.Path
import LineLedger.Pending
import LineLedger.Preview
import LineLedger.Proofs.Change
import LineLedger.Proofs.Change.Applied
import LineLedger.Proofs.Change.Overlay
import LineLedger.Proofs.Change.Parts
import LineLedger.Proofs.Change.Unfused
import LineLedger.Proofs.Command
import LineLedger.Proofs.Disk
import LineLedger.Proofs.Disk.Files
import LineLedger.Proofs.Disk.Rename
import LineLedger.Proofs.Interchange
import LineLedger.Proofs.Invocation
import LineLedger.Proofs.Json.Read
import LineLedger.Proofs.Json.Text
import LineLedger.Proofs.Language
import LineLedger.Proofs.Language.Spelling
import LineLedger.Proofs.Nesting
import LineLedger.Proofs.Path
import LineLedger.Proofs.Pending.Accepted
import LineLedger.Proofs.Pending.Affected
import LineLedger.Proofs.Pending.Asked
import LineLedger.Proofs.Pending.Batch
import LineLedger.Proofs.Pending.Calls
import LineLedger.Proofs.Pending.Commit
import LineLedger.Proofs.Pending.History
import LineLedger.Proofs.Pending.InTurn
import LineLedger.Proofs.Pending.Inline
import LineLedger.Proofs.Pending.Invariant
import LineLedger.Proofs.Pending.Remade
import LineLedger.Proofs.Pending.Rename
import LineLedger.Proofs.Pending.TwoSteps
import LineLedger.Proofs.Pending.Writes
import LineLedger.Proofs.Python.Outline
import LineLedger.Proofs.Python.Statements
import LineLedger.Proofs.Registry
import LineLedger.Proofs.Rename
import LineLedger.Proofs.Scan
import LineLedger.Proofs.Scan.Blank
import LineLedger.Proofs.Scan.Braces.Dialects
import LineLedger.Proofs.Scan.Braces.Levels
import LineLedger.Proofs.Scan.Braces.Operators
import LineLedger.Proofs.Scan.Lua.Closing
import LineLedger.Proofs.Scan.Lua.Line
import LineLedger.Proofs.Scan.Lua.Pass
import LineLedger.Proofs.Scan.Lua.Program
import LineLedger.Proofs.Scan.Pascal.Cut
import LineLedger.Proofs.Scan.Pascal.Hidden
import LineLedger.Proofs.Scan.Pascal.Levels
import LineLedger.Proofs.Scan.Reader
import LineLedger.Proofs.Scan.Records
import LineLedger.Proofs.Scan.Resume
import LineLedger.Proofs.Scan.Roles
import LineLedger.Proofs.Script
import LineLedger.Proofs.Script.Entries
import LineLedger.Proofs.Session.Conclude
import LineLedger.Proofs.Session.Display
import LineLedger.Proofs.Session.Marks
import LineLedger.Proofs.Session.Numbering
import LineLedger.Proofs.Session.Preview
import LineLedger.Proofs.Session.Queue
import LineLedger.Proofs.Session.Renames
import LineLedger.Proofs.SettingsFile
import LineLedger.Proofs.SettingsFile.Frame
import LineLedger.Proofs.Table
import LineLedger.Proofs.Text.Digits
import LineLedger.Proofs.Text.Ends
import LineLedger.Proofs.Text.Lines
import LineLedger.Proofs.Text.Lowercase
import LineLedger.Proofs.Text.Lowered
import LineLedger.Proofs.Text.Pieces
import LineLedger.Proofs.Text.Replace
import LineLedger.Proofs.Text.Trim
import LineLedger.Proofs.Text.WholeWord
import LineLedger.Proofs.Text.Word
import LineLedger.Proofs.Toml.Quoted
import LineLedger.Proofs.Toml.Read
import LineLedger.Proofs.Walk
import LineLedger.Proofs.Walk.Extensions
import LineLedger.Proofs.Walk.InSight
import LineLedger.Python.Expression
import LineLedger.Python.Parse
import LineLedger.Python.Phrase
import LineLedger.Python.Quoted
import LineLedger.Python.Statements
import LineLedger.Python.Token
import LineLedger.Python.Tree
import LineLedger.Record
import LineLedger.Registry
import LineLedger.Row
import LineLedger.Scan.Basic
import LineLedger.Scan.Braces
import LineLedger.Scan.Lua
import LineLedger.Scan.Pascal
import LineLedger.Scan.Plain
import LineLedger.Scan.Role
import LineLedger.Script
import LineLedger.Session
import LineLedger.Settings
import LineLedger.SettingsFile
import LineLedger.Table
import LineLedger.Text.Blank
import LineLedger.Text.Hex
import LineLedger.Text.Letter
import LineLedger.Text.Lines
import LineLedger.Text.Lowercase
import LineLedger.Text.Mark
import LineLedger.Text.Numeral
import LineLedger.Text.Range
import LineLedger.Text.Replace
import LineLedger.Text.Word
import LineLedger.Toml.Item
import LineLedger.Toml.Quoted
import LineLedger.Toml.Read
import LineLedger.Toml.Scalar
import LineLedger.Toml.Write
import LineLedger.Walk
import LineLedger.Walk.Glob
import LineLedger.Walk.Ignore
