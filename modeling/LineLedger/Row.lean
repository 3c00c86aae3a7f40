import LineLedger.Change
import LineLedger.Record

set_option autoImplicit false

namespace LineLedger

structure Row where
  record : Record
  pending : Option ChangeKind
deriving DecidableEq, Repr

end LineLedger
