import LineLedger.Command
import LineLedger.Invocation.Reading
import LineLedger.Python.Parse
import LineLedger.Walk.Ignore

set_option autoImplicit false

namespace LineLedger

structure Invocation where
  command : Command
  format : OutputFormat
  config : Option Path
  verbose : Bool
deriving DecidableEq, Repr

namespace Invocation

def programName : String := "linetype"

def versionNumber : String := "0.1.0"

def formatOf : String → OutputFormat
  | "json" => .json
  | _ => .text

def commandOf (verb : Verb) (r : Reading) : Command :=
  let operand (place : Nat) : String := r.operands.getD place ""
  let dryRun := r.has .dryRun
  let yes := r.has .yes
  let extensions := r.values .ext
  match verb with
  | .classify => .classify ⟨operand 0⟩
  | .scan => .scan ⟨operand 0⟩ extensions
  | .extensions => .extensions ⟨operand 0⟩
  | .apply => .apply ⟨operand 0⟩ dryRun yes
  | .rename =>
    .rename (operand 0) (operand 1) ⟨operand 2⟩ extensions (r.has .word) dryRun yes

def combine (verb : Verb) (inner outer : Reading) (environment : Option String) : Invocation where
  command := commandOf verb inner
  format := ((inner.value? .format).or (outer.value? .format)).elim .text formatOf
  config := ((inner.value? .config).or ((outer.value? .config).or environment)).map Path.mk
  verbose := inner.has .verbose || outer.has .verbose

def refuseNothing (outer : Reading) (environment : Option String) : Refusal :=
  if outer.given.isEmpty && environment.isNone then .nothingGiven else .missingCommand

def ofArguments (environment : Option String) (arguments : List String) :
    Except Refusal Invocation := do
  match ← (Reading.start none).read arguments with
  | (outer, none) =>
    let outer ← outer.finish environment
    .error (refuseNothing outer environment)
  | (outer, some (verb, rest)) =>
    let (inner, _) ← (Reading.start (some verb)).read rest
    let inner ← inner.finish environment
    let outer ← outer.finish environment
    .ok (combine verb inner outer environment)

def logDirective (i : Invocation) (level : String) : String :=
  programName ++ "=" ++ if i.verbose then "debug" else level

def answer [Python.Grammar] [Disk.Walker] (i : Invocation) (d : Disk) :
    Except Failure Answer × Disk :=
  match Settings.load d i.config with
  | .error failure => (.error failure, d)
  | .ok settings => i.command.run settings d

def run (i : Invocation) (inColour : Bool) (d : Disk) : Except Failure String × Disk :=
  let (answer, d) := i.answer d
  (answer.map (Answer.render i.format inColour), d)

def versionText (level : Level) : String :=
  let name := (level.map fun verb => programName ++ "-" ++ verb.name).getD programName
  name ++ " " ++ versionNumber

def helpText : String :=
  "Classify source lines by structural role and apply pending line edits\n\n" ++
  "Usage: linetype [OPTIONS] <COMMAND>\n\n" ++
  "Commands:\n" ++
  "  classify <FILE>                 Classify one file [alias: c]\n" ++
  "  scan <DIR>                      Classify the files below a directory [alias: s]\n" ++
  "  extensions <DIR>                List the extensions found below a directory\n" ++
  "  apply <SCRIPT>                  Apply an edit script\n" ++
  "  rename <OLD> <NEW> <DIR>        Rename in the files below a directory\n" ++
  "  help [COMMAND]                  Print this message\n\n" ++
  "Options:\n" ++
  "  -f, --format <text|json>        Output format\n" ++
  "      --config <PATH>             Settings file [env: LINETYPE_CONFIG]\n" ++
  "  -v, --verbose                   Log more\n" ++
  "      --ext <EXT>                 Take these extensions only (scan, rename)\n" ++
  "  -w, --word                      Match whole words only (rename)\n" ++
  "      --dry-run                   Write nothing (apply, rename)\n" ++
  "  -y, --yes                       Do not ask (apply, rename)\n" ++
  "  -h, --help                      Print help\n" ++
  "  -V, --version                   Print version"

end Invocation

namespace Invocation.Refusal

def message : Refusal → String
  | .help => helpText
  | .version level => versionText level
  | .nothingGiven => helpText
  | .missingCommand => "error: a command is required"
  | .unknownCommand => "error: unrecognized command"
  | .missingOperand => "error: a required argument was not given"
  | .unknownArgument => "error: unexpected argument"
  | .badValue => "error: invalid or missing value"
  | .unwantedValue => "error: a flag that takes no value was given one"
  | .repeatedFlag => "error: a flag was given more than once"

end Invocation.Refusal

end LineLedger
