import LineLedger.Invocation.Flag

set_option autoImplicit false

namespace LineLedger.Invocation

inductive Waiting where
  | flag (flag : Flag) (value : Option String)
  | operand (text : String)
deriving DecidableEq, Repr

structure Reading where
  level : Level
  given : List (Flag × String)
  operands : List String
  waiting : Option Waiting
deriving DecidableEq, Repr

namespace Reading

def start (level : Level) : Reading := ⟨level, [], [], none⟩

def has (r : Reading) (flag : Flag) : Bool := r.given.any (·.1 == flag)

def value? (r : Reading) (flag : Flag) : Option String := r.given.lookup flag

def values (r : Reading) (flag : Flag) : List String :=
  (r.given.filter (·.1 == flag)).map Prod.snd

def formatNames : List String := ["text", "pretty", "json"]

def isGood (flag : Flag) (value : String) : Bool :=
  match flag with
  | .format => formatNames.contains value
  | .config => value ≠ ""
  | _ => true

def give (r : Reading) (flag : Flag) (value : String) : Except Refusal Reading :=
  if r.has flag && !flag.repeats then .error .repeatedFlag
  else if !isGood flag value then .error .badValue
  else .ok { r with given := r.given ++ [(flag, value)] }

def place (r : Reading) (text : String) : Except Refusal Reading :=
  if r.level.operands[r.operands.length]? = some .path && text = "" then .error .badValue
  else .ok { r with operands := r.operands ++ [text] }

def settle (r : Reading) : Except Refusal Reading :=
  let settled := { r with waiting := none }
  match r.waiting with
  | none => .ok settled
  | some (.flag _ none) => .error .badValue
  | some (.flag flag (some value)) => settled.give flag value
  | some (.operand text) => settled.place text

def awaitsValue (r : Reading) : Bool :=
  match r.waiting with
  | some (.flag _ none) => true
  | _ => false

def switch (r : Reading) (flag : Flag) : Except Refusal Reading := do
  let r ← r.settle
  match flag with
  | .help => .error .help
  | .version => .error (.version r.level)
  | flag => r.give flag ""

def option (r : Reading) (flag : Flag) (value : Option String) : Except Refusal Reading := do
  let r ← r.settle
  match value with
  | some value => r.give flag value
  | none => .ok { r with waiting := some (.flag flag none) }

def takeLong (r : Reading) (name : String) (value : Option String) : Except Refusal Reading :=
  match r.level.flags.find? (·.long == name) with
  | none => .error .unknownArgument
  | some flag =>
    if flag.takesValue then r.option flag value
    else if value.isSome then .error .unwantedValue
    else r.switch flag

def takeShort (r : Reading) : List Char → Except Refusal Reading
  | [] => .ok r
  | c :: rest =>
    match r.level.flags.find? (·.short? == some c) with
    | none => .error .unknownArgument
    | some flag =>
      if !flag.takesValue then
        match r.switch flag with
        | .ok r => takeShort r rest
        | .error refusal => .error refusal
      else
        match rest with
        | [] => r.option flag none
        | '=' :: value => r.option flag (some (String.ofList value))
        | value => r.option flag (some (String.ofList value))

def splitAtEquals (text : List Char) : String × Option String :=
  match text.dropWhile (· ≠ '=') with
  | _ :: value => (String.ofList (text.takeWhile (· ≠ '=')), some (String.ofList value))
  | [] => (String.ofList text, none)

def takeValue (r : Reading) (value : String) : Reading :=
  match r.waiting with
  | some (.flag flag none) => { r with waiting := some (.flag flag (some value)) }
  | _ => r

def operandsMet (r : Reading) : Nat :=
  match r.waiting with
  | some (.operand _) => r.operands.length + 1
  | _ => r.operands.length

-- A word that is no flag. After a double dash a command's name is no command.
def takeOperand (r : Reading) (isPlain : Bool) (text : String) : Except Refusal Reading :=
  if r.operandsMet < r.level.operands.length then do
    let r ← r.settle
    .ok { r with waiting := some (.operand text) }
  else if r.level.isSome then .error .unknownArgument
  else if isPlain && ((Verb.ofName? text).isSome || text = "help") then .error .unknownArgument
  else .error .unknownCommand

def takeArgument (r : Reading) (arg : String) : Except Refusal Reading :=
  match arg.toList with
  | '-' :: '-' :: text =>
    let (name, value) := splitAtEquals text
    r.takeLong name value
  | '-' :: c :: rest => r.takeShort (c :: rest)
  | _ => if r.awaitsValue then .ok (r.takeValue arg) else r.takeOperand false arg

def helpAbout : List String → Refusal
  | [] => .help
  | [name] => if (Verb.ofName? name).isSome || name = "help" then .help else .unknownCommand
  | _ => .unknownCommand

def takePlain (r : Reading) : List String → Except Refusal Reading
  | [] => .ok r
  | arg :: rest =>
    match r.takeOperand true arg with
    | .ok r => takePlain r rest
    | .error refusal => .error refusal

def read (r : Reading) : List String → Except Refusal (Reading × Option (Verb × List String))
  | [] => .ok (r, none)
  | arg :: rest =>
    let seeksVerb := r.level.isNone && !r.awaitsValue
    if seeksVerb && arg = "help" then .error (helpAbout rest)
    else
      match if seeksVerb then Verb.ofName? arg else none with
      | some verb => .ok (r, some (verb, rest))
      | none =>
        if arg = "--" then (r.takePlain rest).map (·, none)
        else
          match r.takeArgument arg with
          | .ok r => read r rest
          | .error refusal => .error refusal

def finish (r : Reading) (environment : Option String) : Except Refusal Reading := do
  let r ← r.settle
  if !r.has .config && environment = some "" then .error .badValue
  else if r.operands.length < r.level.operands.length then .error .missingOperand
  else .ok r

end Reading

end LineLedger.Invocation
