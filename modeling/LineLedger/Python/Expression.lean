import LineLedger.Python.Token

set_option autoImplicit false

namespace LineLedger.Python

inductive Bracket where
  | paren
  | square
  | brace
  | lambda
deriving DecidableEq, Repr

inductive Expecting where
  | operand
  | operandOrEnd
  -- The other bound of a slice, which may be left out.
  | bound
  | operator
  | operatorOrQuoted
  | anything
  | attribute
  | membership
deriving DecidableEq, Repr

structure Reader where
  brackets : List Bracket
  expecting : Expecting
deriving DecidableEq, Repr

namespace Reader

def isComplete (r : Reader) : Bool :=
  r.brackets.isEmpty &&
    match r.expecting with
    | .operandOrEnd | .operator | .operatorOrQuoted | .anything => true
    | _ => false

def awaitsOperand (r : Reader) : Bool :=
  match r.expecting with
  | .operand | .operandOrEnd | .bound | .anything => true
  | _ => false

def awaitsOperator (r : Reader) : Bool :=
  match r.expecting with
  | .operator | .operatorOrQuoted | .anything => true
  | _ => false

def mayClose (r : Reader) : Bool :=
  match r.expecting with
  | .operandOrEnd | .bound | .operator | .operatorOrQuoted | .anything => true
  | _ => false

def expect (r : Reader) (expecting : Expecting) : Reader := { r with expecting }

def push (r : Reader) (bracket : Bracket) : Reader := ⟨bracket :: r.brackets, .operandOrEnd⟩

end Reader

def reserved : List String := [
  "and", "as", "assert", "break", "class", "continue", "def", "del", "elif", "else", "except",
  "finally", "for", "from", "global", "if", "import", "in", "is", "nonlocal", "or", "pass",
  "raise", "return", "try", "while", "with"]

def wordOperators : List String := ["and", "or", "in", "is", "if", "else", "for", "as", "from"]

def signOperators : List String := [
  "+", "-", "*", "/", "//", "%", "@", "&", "|", "^", "<<", ">>", "<", ">", "<=", ">=", "==",
  "!=", "<>", "**", ":=", "->"]

def augmentedSigns : List String := [
  "+=", "-=", "*=", "/=", "%=", "@=", "&=", "|=", "^=", "**=", "//=", ">>=", "<<="]

def Reader.readOperand (r : Reader) (name : String) : Option Reader :=
  if name = "not" then some (r.expect .operand)
  else if name = "lambda" then some (r.push .lambda)
  else if name = "await" || name = "yield" || name = "async" then some (r.expect .anything)
  else if reserved.contains name then none
  else some (r.expect .operator)

-- A comma may stand last before the sequence that a loop runs over.
def Reader.readName (r : Reader) (name : String) : Option Reader :=
  match r.expecting with
  | .attribute => some (r.expect .operator)
  | .membership => if name = "in" then some (r.expect .operand) else none
  | .operandOrEnd =>
    if name = "in" then some (r.expect .operand) else r.readOperand name
  | _ =>
    if r.awaitsOperator && wordOperators.contains name then some (r.expect .operand)
    else if r.awaitsOperator && name = "async" then some (r.expect .operator)
    else if r.awaitsOperator && name = "not" && r.expecting ≠ .anything then
      some (r.expect .membership)
    else if r.awaitsOperand then r.readOperand name
    else none

def Reader.close (r : Reader) (bracket : Bracket) : Option Reader :=
  match r.brackets with
  | top :: outer => if top = bracket && r.mayClose then some ⟨outer, .operator⟩ else none
  | [] => none

-- A colon inside brackets: it splits a slice, a dictionary entry or a parameter.
def Reader.readColon (r : Reader) : Option Reader :=
  match r.brackets with
  | .lambda :: outer => if r.mayClose then some ⟨outer, .operand⟩ else none
  | .square :: _ => if r.mayClose then some (r.expect .bound) else none
  | .brace :: _ | .paren :: _ => if r.awaitsOperator then some (r.expect .operand) else none
  | [] => none

def Reader.readEquals (r : Reader) : Option Reader :=
  match r.brackets with
  | [] => if r.mayClose then some (r.expect .operand) else none
  | .paren :: _ | .lambda :: _ => if r.awaitsOperator then some (r.expect .operand) else none
  | _ => none

def Reader.readSign (r : Reader) (sign : String) : Option Reader :=
  if r.expecting = .attribute || r.expecting = .membership then none
  else if sign = "(" then some (r.push .paren)
  else if sign = "[" then some (r.push .square)
  else if sign = "\x7b" then if r.awaitsOperand then some (r.push .brace) else none
  else if sign = ")" then r.close .paren
  else if sign = "]" then r.close .square
  else if sign = "\x7d" then r.close .brace
  else if sign = ":" then r.readColon
  else if sign = "=" then r.readEquals
  else if r.awaitsOperator && sign = "." then some (r.expect .attribute)
  else if (r.awaitsOperator || r.expecting = .bound) && sign = "," then
    some (r.expect .operandOrEnd)
  else if r.awaitsOperator && signOperators.contains sign then some (r.expect .operand)
  else if r.awaitsOperator && augmentedSigns.contains sign && r.brackets.isEmpty then
    some (r.expect .operand)
  else if r.awaitsOperand then
    if sign = "+" || sign = "-" || sign = "~" || sign = "**" then some (r.expect .operand)
    else if sign = "*" || sign = "/" then some (r.expect .anything)
    else if sign = "..." then some (r.expect .operator)
    else none
  else none

def Reader.read (r : Reader) (lexeme : Lexeme) : Option Reader :=
  match lexeme with
  | .name name => r.readName name
  | .number => if r.awaitsOperand then some (r.expect .operator) else none
  | .quoted =>
    if r.awaitsOperand || r.expecting = .operatorOrQuoted then some (r.expect .operatorOrQuoted)
    else none
  | .sign sign => r.readSign sign
  | .illegal => none

inductive Form where
  | plain
  | assigned
  | annotated
  | augmented
deriving DecidableEq, Repr

def Form.after (form : Form) (r : Reader) (lexeme : Lexeme) : Form :=
  if form ≠ .plain || !r.brackets.isEmpty then form
  else
    match lexeme with
    | .sign sign =>
      if sign = "=" then .assigned
      else if sign = ":" then .annotated
      else if augmentedSigns.contains sign then .augmented
      else .plain
    | _ => .plain

inductive Ending where
  | finished
  | colon
  | stuck
deriving DecidableEq, Repr

structure Extent where
  used : Nat
  ending : Ending
  last : Position
  form : Form
  strays : List (Position × Position)
deriving Repr

def startsLine : List Token → Bool
  | [] => true
  | t :: _ => t.indent.isSome

def restOfLine (tokens : List Token) : List Token := tokens.takeWhile fun t => t.indent.isNone

def lastStop (otherwise : Position) (tokens : List Token) : Position :=
  match tokens.getLast? with
  | some t => t.stop
  | none => otherwise

-- After a token that cannot stand here the rest of its line is given up.
def Extent.giveUp (used : Nat) (last : Position) (tokens : List Token) : Extent :=
  match tokens with
  | [] => ⟨used, .stuck, last, .plain, []⟩
  | t :: rest =>
    let line := restOfLine rest
    ⟨used + 1 + line.length, .stuck, lastStop t.stop line, .plain, []⟩

def Extent.find (header : Bool) (form : Form) (strays : List (Position × Position)) (used : Nat)
    (last : Position) (r : Reader) : List Token → Extent
  | [] => ⟨used, if r.isComplete then .finished else .stuck, last, form, strays⟩
  | t :: rest =>
    let isSign (sign : String) : Bool := t.lexeme = .sign sign
    if !header && r.isComplete && t.indent.isSome then ⟨used, .finished, last, form, strays⟩
    else if r.isComplete && isSign ";" then ⟨used + 1, .finished, last, form, strays⟩
    else if header && r.isComplete && isSign ":" then ⟨used + 1, .colon, t.stop, form, strays⟩
    else if header && r.brackets.isEmpty && isSign "=" then Extent.giveUp used last (t :: rest)
    else if header && isSign ":" && r.brackets = [.paren] && r.expecting = .operandOrEnd &&
        startsLine rest then
      ⟨used + 1, .colon, t.stop, form, strays⟩
    else
      let next :=
        if isSign ":" && r.brackets.isEmpty && r.awaitsOperator && form = .plain && !header then
          some (r.expect .operand)
        else r.read t.lexeme
      match next with
      | some next => Extent.find header (form.after r t.lexeme) strays (used + 1) t.stop next rest
      | none =>
        match rest with
        | [] => Extent.giveUp used last [t]
        | u :: _ =>
          if u.indent.isNone && (r.read u.lexeme).isSome && t.indent.isNone then
            Extent.find header form (strays ++ [(t.start, t.stop)]) (used + 1) t.stop r rest
          else Extent.giveUp used last (t :: rest)

end LineLedger.Python
