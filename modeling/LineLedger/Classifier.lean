import LineLedger.Language
import LineLedger.Python.Statements
import LineLedger.Scan.Braces
import LineLedger.Scan.Lua
import LineLedger.Scan.Pascal
import LineLedger.Scan.Plain

set_option autoImplicit false

namespace LineLedger

namespace Language

variable [Python.Grammar]

def marks (language : Language) (source : List Char) : List Mark :=
  match language with
  | .python => Python.scan source
  | .lua => Lua.scanner.scan source
  | .c => (Braces.scanner .c).scan source
  | .cpp => (Braces.scanner .cpp).scan source
  | .pascal => Pascal.scanner.scan source
  | .generic => Plain.scanner.scan source

def shownExtension (language : Language) (extension : Option String) : Option String :=
  match language with
  | .generic => none
  | _ => extension

def classify (language : Language) (name : String) (extension : Option String)
    (source : String) : List Record :=
  (language.marks source.toList).map (Mark.toRecord name (language.shownExtension extension))

end Language

end LineLedger
