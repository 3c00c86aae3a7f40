import LineLedger.Disk
import LineLedger.Language

set_option autoImplicit false

namespace LineLedger.Disk

-- Finds the files below a folder, as far as they are in sight.
class Walker where
  regularFiles : Disk → Path → List Path

section Walk

variable [Walker]

def regularFiles (d : Disk) (root : Path) : List Path := Walker.regularFiles d root

def requireFolder (d : Disk) (root : Path) : Except Failure Unit :=
  if d.isFolder root then .ok () else .error (.unreadable root .notFolder)

def extensionOf? (path : Path) : Option String := path.extension?.map Extension.normalize

-- An empty list of extensions accepts every file.
def accepts (extensions : List String) (path : Path) : Bool :=
  extensions.isEmpty ||
    (extensionOf? path).any fun ext => (extensions.map Extension.normalize).contains ext

def collectFiles (d : Disk) (root : Path) (extensions : List String) :
    Except Failure (List Path) := do
  d.requireFolder root
  .ok (((d.regularFiles root).filter (accepts extensions)).mergeSort fun p q => !q.before p)

def discoverExtensions (d : Disk) (root : Path) : Except Failure (List String) := do
  d.requireFolder root
  let found := (d.regularFiles root).filterMap extensionOf?
  .ok (Table.ofList (found.map fun ext => ("." ++ ext, ()))).keys

end Walk

end LineLedger.Disk
