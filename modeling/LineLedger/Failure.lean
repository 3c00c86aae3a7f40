import LineLedger.Path

set_option autoImplicit false

namespace LineLedger

inductive Fault where
  | missing
  | isDirectory
  | notDirectory
  | alreadyExists
  | notEmpty
  | busy
  | invalid
  | nameTooLong
  | holdsNull
  | notText
  | notFolder
  | other (text : String)
deriving DecidableEq, Repr

def Fault.text : Fault → String
  | .missing => "No such file or directory (os error 2)"
  | .isDirectory => "Is a directory (os error 21)"
  | .notDirectory => "Not a directory (os error 20)"
  | .alreadyExists => "File exists (os error 17)"
  | .notEmpty => "Directory not empty (os error 39)"
  | .busy => "Device or resource busy (os error 16)"
  | .invalid => "Invalid argument (os error 22)"
  | .nameTooLong => "File name too long (os error 36)"
  | .holdsNull => "file name contained an unexpected NUL byte"
  | .notText => "stream did not contain valid UTF-8"
  | .notFolder => "not a directory"
  | .other text => text

inductive SettingsProblem where
  | unknownLanguage (name : String)
  | unknownConfirmMode (text : String)
  | unknownLogLevel (text : String)
  | missingFile (path : Path)
  | unreadableFile (path : Path)
  | other (text : String)
deriving DecidableEq, Repr

def logLevels : List String := ["error", "warn", "info", "debug", "trace"]

def SettingsProblem.text : SettingsProblem → String
  | .unknownLanguage name => "Unknown language: " ++ name
  | .unknownConfirmMode text =>
    "Invalid confirm mode: " ++ text ++ ". Must be one of: never, once, per-file"
  | .unknownLogLevel text =>
    "Invalid log level: " ++ text ++ ". Must be one of: " ++ ", ".intercalate logLevels
  | .missingFile path => "Config file not found: " ++ path.text
  | .unreadableFile path => "Failed to parse " ++ path.text
  | .other text => text

inductive EntryProblem where
  | lineZero
  | noContent
deriving DecidableEq, Repr

def EntryProblem.text : EntryProblem → String
  | .lineZero => "line numbers start at 1"
  | .noContent => "insert and edit need \"content\""

inductive ScriptProblem where
  | malformed
  | entry (number : Nat) (problem : EntryProblem)
  | other (text : String)
deriving DecidableEq, Repr

def ScriptProblem.text : ScriptProblem → String
  | .malformed => "Invalid edit script:"
  | .entry number problem => "Invalid edit script: entry " ++ toString number ++ ": " ++ problem.text
  | .other text => "Invalid edit script: " ++ text

inductive Failure where
  | unreadable (path : Path) (fault : Fault)
  | notText (path : Path)
  | locked (path : Path)
  | unwritable (path : Path) (fault : Fault)
  | settings (problem : SettingsProblem)
  | script (problem : ScriptProblem)
  | prompt (reason : String)
  | system (fault : Fault)
deriving DecidableEq, Repr

namespace Failure

def message : Failure → String
  | .unreadable path fault => "Failed to read " ++ path.text ++ ": " ++ fault.text
  | .notText path => "File is not valid UTF-8: " ++ path.text
  | .locked path => "File is locked by another process: " ++ path.text
  | .unwritable path fault => "Failed to write " ++ path.text ++ ": " ++ fault.text
  | .settings problem => "Configuration error: " ++ problem.text
  | .script problem => problem.text
  | .prompt reason => "Prompt failed: " ++ reason
  | .system fault => "IO error: " ++ fault.text

def exitCode : Failure → Nat
  | .unreadable _ _ => 1
  | .system _ => 1
  | .notText _ => 2
  | .locked _ => 3
  | .unwritable _ _ => 3
  | .settings _ => 4
  | .script _ => 4
  | .prompt _ => 5

def path? : Failure → Option Path
  | .unreadable path _ => some path
  | .notText path => some path
  | .locked path => some path
  | .unwritable path _ => some path
  | _ => none

end Failure

end LineLedger
