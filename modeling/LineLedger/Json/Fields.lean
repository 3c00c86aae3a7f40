import LineLedger.Json.Read
import LineLedger.Json.Print

set_option autoImplicit false

namespace LineLedger.Json

structure Fields where
  positional : Bool
  values : List (String × Json)

namespace Fields

-- A member may be given once only if it is a field; no member may have a key that is no text.
def ofMembers? (names : List String) (members : List (List Char × Json)) : Option Fields := do
  let members ← members.mapM fun (key, v) => (unescape key).map (String.ofList ·, v)
  let known := members.filter fun (key, _) => names.contains key
  if (known.map Prod.fst).Nodup then some ⟨false, known⟩ else none

def of? (names : List String) : Json → Option Fields
  | .object members => ofMembers? names members
  | .array items => if items.length ≤ names.length then some ⟨true, names.zip items⟩ else none
  | _ => none

def get? (f : Fields) (name : String) : Option Json := f.values.lookup name

def required? {α : Type} (f : Fields) (name : String) (decode : Json → Option α) : Option α :=
  (f.get? name).bind decode

-- A value that is null is absent, and so is one that is missing from an object.
def optional? {α : Type} (f : Fields) (name : String) (decode : Json → Option α) :
    Option (Option α) :=
  match f.get? name with
  | some v => Json.optional? decode v
  | none => if f.positional then none else some none

def withDefault? {α : Type} (f : Fields) (name : String) (value : α) (decode : Json → Option α) :
    Option α :=
  match f.get? name with
  | some v => decode v
  | none => some value

end Fields

def constant? {α : Type} (ofName? : String → Option α) : Json → Option α
  | .string spelling => (unescape spelling).bind fun name => ofName? (String.ofList name)
  | .object [(key, .null)] => (unescape key).bind fun name => ofName? (String.ofList name)
  | _ => none

end LineLedger.Json
