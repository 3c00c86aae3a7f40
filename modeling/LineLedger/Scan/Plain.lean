import LineLedger.Scan.Basic

set_option autoImplicit false

namespace LineLedger.Plain

def scanner : Scanner Unit where
  start := ()
  step _ _ := ([none], ())

end LineLedger.Plain
