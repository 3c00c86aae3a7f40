import LineLedger.Text.Lines

set_option autoImplicit false

namespace LineLedger

structure Record where
  location : String
  line : Nat
  extension : Option String
  tag : Option String
  text : String
deriving DecidableEq, Repr

namespace Record

def locate (name : String) (line : Nat) : String := name ++ ":" ++ toString line

-- The literal text is kept without its line break.
def make (name : String) (line : Nat) (extension tag : Option String) (text : String) : Record where
  location := locate name line
  line := line
  extension := extension
  tag := tag
  text := String.ofList (Text.chomp text.toList)

def tagText (r : Record) : String := r.tag.getD ""

end Record

end LineLedger
