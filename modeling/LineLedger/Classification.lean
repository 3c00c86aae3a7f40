import LineLedger.Classifier
import LineLedger.Disk
import LineLedger.Registry

set_option autoImplicit false

namespace LineLedger

variable [Python.Grammar]

namespace Language

def classifyAs (language : Language) (path : Path) (source : String) : List Record :=
  language.classify path.baseName path.dottedExtension? source

def classifyFile (language : Language) (d : Disk) (path : Path) : Except Failure (List Record) := do
  let source ← d.readText path
  .ok (language.classifyAs path source)

end Language

namespace Registry

def classifyFile (r : Registry) (d : Disk) (path : Path) :
    Except Failure (List Record) × Registry :=
  let (language, r) := r.lookUpPath path
  (language.classifyFile d path, r)

end Registry

end LineLedger
