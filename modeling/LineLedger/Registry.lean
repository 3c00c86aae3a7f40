import LineLedger.Language
import LineLedger.Path
import LineLedger.Table

set_option autoImplicit false

namespace LineLedger

abbrev Overrides := Table String Language

namespace Overrides

-- Of two entries with one normal form the later counts.
def ofEntries (entries : List (String × Language)) : Overrides :=
  Table.ofList (entries.map fun (ext, language) => (Extension.normalize ext, language))

-- Overrides come before the built-in extensions; what neither knows is generic.
def languageFor (overrides : Overrides) (ext : String) : Language :=
  let ext := Extension.normalize ext
  ((overrides.get? ext).or (Language.ofExtension? ext)).getD .generic

end Overrides

-- What is remembered of an extension. The number says how many entries there were before it.
structure Registry.Entry where
  number : Nat
  language : Language
deriving DecidableEq, Repr

structure Registry where
  overrides : Overrides
  memory : Table String Registry.Entry
deriving DecidableEq

namespace Registry

def empty : Registry := ⟨.empty, .empty⟩

def ofOverrides (entries : List (String × Language)) : Registry :=
  ⟨Overrides.ofEntries entries, .empty⟩

def languageFor (r : Registry) (ext : String) : Language := r.overrides.languageFor ext

def entryFor (r : Registry) (ext : String) : Entry × Registry :=
  let ext := Extension.normalize ext
  match r.memory.get? ext with
  | some entry => (entry, r)
  | none =>
    let entry := ⟨r.memory.size, r.languageFor ext⟩
    (entry, { r with memory := r.memory.insert ext entry })

def lookUp (r : Registry) (ext : String) : Language × Registry :=
  let (entry, r) := r.entryFor ext
  (entry.language, r)

def lookUpPath (r : Registry) (p : Path) : Language × Registry :=
  r.lookUp (p.extension?.getD "")

def size (r : Registry) : Nat := r.memory.size

def isEmpty (r : Registry) : Bool := r.memory.isEmpty

end Registry

end LineLedger
