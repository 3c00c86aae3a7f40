import LineLedger.Text.Blank
import LineLedger.Text.Lowercase

set_option autoImplicit false

namespace LineLedger

inductive Language where
  | python
  | lua
  | c
  | cpp
  | pascal
  | generic
deriving DecidableEq, Repr

namespace Extension

def normal (ext : List Char) : List Char :=
  Text.lower ((Text.trim ext).dropWhile (· = '.'))

def normalize (ext : String) : String := String.ofList (normal ext.toList)

end Extension

namespace Language

def all : List Language := [.python, .lua, .c, .cpp, .pascal, .generic]

def name : Language → String
  | .python => "python"
  | .lua => "lua"
  | .c => "c"
  | .cpp => "cpp"
  | .pascal => "pascal"
  | .generic => "generic"

def extensions : Language → List String
  | .python => ["py", "pyi", "pyw"]
  | .lua => ["lua"]
  | .c => ["c", "h"]
  | .cpp => ["cpp", "cc", "cxx", "c++", "hpp", "hxx", "hh"]
  | .pascal => ["pas", "pp", "dpr", "lpr", "dpk"]
  | .generic => []

def nicknames : Language → List String
  | .cpp => ["c++"]
  | .generic => ["text"]
  | _ => []

def ofExtension? (ext : String) : Option Language :=
  let ext := Extension.normalize ext
  all.find? fun language => language.extensions.contains ext

def ofName (text : String) : Except String Language :=
  let wanted := String.ofList (Text.lower (Text.trim text.toList))
  match all.find? fun language => language.name == wanted || language.nicknames.contains wanted with
  | some language => .ok language
  | none => .error wanted

end Language

end LineLedger
