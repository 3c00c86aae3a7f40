import LineLedger.Python.Expression

set_option autoImplicit false

namespace LineLedger.Python

inductive Body where
  | inline
  | below (width : Nat)
deriving DecidableEq, Repr

inductive PhraseKind where
  | simple (kind : StatementKind)
  | header (kind : StatementKind) (body : Body)
  | clause (word : String) (body : Body)
  | unreadable
deriving DecidableEq, Repr

structure Phrase where
  kind : PhraseKind
  start : Position
  stop : Position
  indent : Option Nat
  strays : List (Position × Position)
deriving Repr

def bodyBefore : List Token → Body
  | [] => .below 0
  | t :: _ =>
    match t.indent with
    | none => .inline
    | some width => .below width

def extent (header : Bool) (expecting : Expecting) (first : Token) (skip : Nat)
    (rest : List Token) : Extent :=
  let last := lastStop first.stop (rest.take skip)
  let found := Extent.find header .plain [] 0 last ⟨[], expecting⟩ (rest.drop skip)
  { found with used := found.used + skip }

def Phrase.unreadable (first : Token) (found : Extent) : Phrase × Nat :=
  (⟨.unreadable, first.start, found.last, first.indent, []⟩, found.used)

def simplePhrase (kind : StatementKind) (first : Token) (found : Extent) : Phrase × Nat :=
  if found.ending = .finished then
    (⟨.simple kind, first.start, found.last, first.indent, found.strays⟩, found.used)
  else Phrase.unreadable first found

def headerPhrase (kind : Body → PhraseKind) (first : Token) (rest : List Token) (found : Extent) :
    Phrase × Nat :=
  if found.ending = .colon then
    (⟨kind (bodyBefore (rest.drop found.used)), first.start, found.last, first.indent,
      found.strays⟩, found.used)
  else Phrase.unreadable first found

def formKind : Form → StatementKind
  | .plain => .expression
  | .assigned => .assignment
  | .annotated => .annotated
  | .augmented => .augmentedAssignment

def valuePhrase (first : Token) (rest : List Token) : Phrase × Nat :=
  let found := Extent.find false .plain [] 0 first.start ⟨[], .operand⟩ (first :: rest)
  let (phrase, used) := simplePhrase (formKind found.form) first found
  (phrase, used - 1)

def simpleKeywords : List (String × StatementKind × Expecting) := [
  ("pass", .passStatement, .operator),
  ("break", .breakStatement, .operator),
  ("continue", .continueStatement, .operator),
  ("return", .returnStatement, .operandOrEnd),
  ("raise", .raiseStatement, .operandOrEnd),
  ("del", .deleteStatement, .operand),
  ("assert", .assertStatement, .operand),
  ("global", .globalStatement, .operand),
  ("nonlocal", .nonlocalStatement, .operand),
  ("import", .importStatement, .operand)]

def headerKeywords : List (String × StatementKind × Expecting) := [
  ("if", .conditional, .operand),
  ("while", .whileLoop, .operand),
  ("for", .forLoop, .operand),
  ("with", .withBlock, .operand),
  ("try", .tryBlock, .operator),
  ("class", .classDefinition, .operand),
  ("def", .function false, .operand)]

def clauseKeywords : List (String × Expecting) := [
  ("elif", .operand),
  ("else", .operator),
  ("except", .operandOrEnd),
  ("finally", .operator)]

def asyncKeywords : List (String × StatementKind) := [
  ("for", .forLoop),
  ("with", .withBlock),
  ("def", .function true)]

-- Statements that a name starts only if an operand follows on its line.
def startsOperand : Lexeme → Bool
  | .name name =>
    !reserved.contains name
  | .number | .quoted => true
  | .sign sign => ["(", "[", "\x7b", "-", "+", "~", "*", "..."].contains sign
  | .illegal => false

def nextOnLine : List Token → Option Lexeme
  | [] => none
  | t :: _ => if t.indent.isNone then some t.lexeme else none

def moduleLength (tokens : List Token) : Nat :=
  (tokens.takeWhile fun t => t.lexeme ≠ .name "import").length

def importPhrase (first : Token) (rest : List Token) : Phrase × Nat :=
  let skip := moduleLength (restOfLine rest)
  match rest.drop skip with
  | [] => Phrase.unreadable first (extent false .attribute first skip rest)
  | t :: after =>
    if t.lexeme = .name "import" && skip ≠ 0 then
      let star := nextOnLine after = some (.sign "*")
      let expecting := if star then .operator else .operand
      simplePhrase .importFrom first
        (extent false expecting first (skip + (if star then 2 else 1)) rest)
    else Phrase.unreadable first (extent false .attribute first skip rest)

-- A header whose keyword is also a plain name; it must be one to its colon.
def softHeader (below : Bool) (first : Token) (rest : List Token) : Option (Phrase × Nat) :=
  if (nextOnLine rest).any startsOperand then
    let found := extent true .operand first 0 rest
    let body := bodyBefore (rest.drop found.used)
    if found.ending = .colon && !(below && body = .inline) then
      some (headerPhrase (.header .conditional) first rest found)
    else none
  else none

def isNameOnLine (tokens : List Token) : Bool :=
  match nextOnLine tokens with
  | some (.name name) => !reserved.contains name
  | _ => false

def namedPhrase (name : String) (first : Token) (rest : List Token) : Phrase × Nat :=
  match simpleKeywords.lookup name with
  | some (kind, expecting) => simplePhrase kind first (extent false expecting first 0 rest)
  | none =>
    match headerKeywords.lookup name with
    | some (kind, expecting) =>
      headerPhrase (.header kind) first rest (extent true expecting first 0 rest)
    | none =>
      match clauseKeywords.lookup name with
      | some expecting =>
        headerPhrase (.clause name) first rest (extent true expecting first 0 rest)
      | none =>
        if name = "from" then importPhrase first rest
        else if name = "match" || name = "case" then
          (softHeader (name = "match") first rest).getD (valuePhrase first rest)
        else if name = "async" then
          match nextOnLine rest with
          | some (.name next) =>
            match asyncKeywords.lookup next with
            | some kind => headerPhrase (.header kind) first rest (extent true .operand first 1 rest)
            | none => valuePhrase first rest
          | _ => valuePhrase first rest
        else if name = "type" && isNameOnLine rest then
          simplePhrase .expression first (extent false .operand first 0 rest)
        else if name = "print" || name = "exec" then
          let found := extent false .anything first 0 rest
          simplePhrase (formKind found.form) first found
        else valuePhrase first rest

def phraseAt (first : Token) (rest : List Token) : Phrase × Nat :=
  match first.lexeme with
  | .name name => namedPhrase name first rest
  | .sign sign =>
    if sign = "@" then simplePhrase .decorator first (extent false .operand first 0 rest)
    else valuePhrase first rest
  | _ => valuePhrase first rest

def phrases : List Token → List Phrase
  | [] => []
  | first :: rest =>
    let (phrase, used) := phraseAt first rest
    phrase :: phrases (rest.drop used)
termination_by tokens => tokens.length
decreasing_by
  simp only [List.length_cons, List.length_drop]
  omega

end LineLedger.Python
