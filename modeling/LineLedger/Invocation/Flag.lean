set_option autoImplicit false

namespace LineLedger.Invocation

inductive Flag where
  | format
  | config
  | verbose
  | ext
  | dryRun
  | yes
  | word
  | help
  | version
deriving DecidableEq, Repr

namespace Flag

def long : Flag → String
  | .format => "format"
  | .config => "config"
  | .verbose => "verbose"
  | .ext => "ext"
  | .dryRun => "dry-run"
  | .yes => "yes"
  | .word => "word"
  | .help => "help"
  | .version => "version"

def short? : Flag → Option Char
  | .format => some 'f'
  | .config => none
  | .verbose => some 'v'
  | .ext => none
  | .dryRun => none
  | .yes => some 'y'
  | .word => some 'w'
  | .help => some 'h'
  | .version => some 'V'

def takesValue : Flag → Bool
  | .format | .config | .ext => true
  | _ => false

def repeats : Flag → Bool
  | .ext => true
  | _ => false

def shared : List Flag := [.format, .config, .verbose, .help, .version]

end Flag

inductive Operand where
  | path
  | text
deriving DecidableEq, Repr

inductive Verb where
  | classify
  | scan
  | extensions
  | apply
  | rename
deriving DecidableEq, Repr

namespace Verb

def all : List Verb := [.classify, .scan, .extensions, .apply, .rename]

def name : Verb → String
  | .classify => "classify"
  | .scan => "scan"
  | .extensions => "extensions"
  | .apply => "apply"
  | .rename => "rename"

def nicknames : Verb → List String
  | .classify => ["c"]
  | .scan => ["s"]
  | _ => []

def ofName? (text : String) : Option Verb :=
  all.find? fun verb => verb.name == text || verb.nicknames.contains text

def flags : Verb → List Flag
  | .classify | .extensions => []
  | .scan => [.ext]
  | .apply => [.dryRun, .yes]
  | .rename => [.ext, .word, .dryRun, .yes]

def operands : Verb → List Operand
  | .rename => [.text, .text, .path]
  | _ => [.path]

end Verb

abbrev Level := Option Verb

namespace Level

def flags : Level → List Flag
  | none => Flag.shared
  | some verb => verb.flags ++ Flag.shared

def operands : Level → List Operand
  | none => []
  | some verb => verb.operands

end Level

-- Why no command was read. Asking for help or for the version is not an error.
inductive Refusal where
  | help
  | version (level : Level)
  | nothingGiven
  | missingCommand
  | unknownCommand
  | missingOperand
  | unknownArgument
  | badValue
  | unwantedValue
  | repeatedFlag
deriving DecidableEq, Repr

namespace Refusal

def exitCode : Refusal → Nat
  | .help | .version _ => 0
  | _ => 2

end Refusal

end LineLedger.Invocation
