import LineLedger.Python.Phrase
import LineLedger.Python.Statements

set_option autoImplicit false

namespace LineLedger.Python

inductive BodyState where
  | inline
  | block (width : Nat)
  | ended
deriving DecidableEq, Repr

inductive OpenKind where
  | statement (kind : StatementKind)
  | clause (word : String)
  | source
deriving DecidableEq, Repr

structure Open where
  kind : OpenKind
  start : Position
  stop : Position
  clauses : List String
  body : BodyState
  children : List Tree

def clausesAfter (kind : StatementKind) (word : Option String) : List String :=
  match kind with
  | .conditional => if word = some "else" then [] else ["elif", "else"]
  | .forLoop | .whileLoop => if word = some "else" then [] else ["else"]
  | .tryBlock =>
    match word with
    | none => ["except", "finally"]
    | some "except" => ["except", "else", "finally"]
    | some "else" => ["finally"]
    | some _ => []
  | _ => []

def StatementKind.nodeName : StatementKind → String
  | .function _ => "function_definition"
  | .classDefinition => "class_definition"
  | .decorator => "decorator"
  | .returnStatement => "return_statement"
  | .deleteStatement => "delete_statement"
  | .expression | .assignment | .annotated | .augmentedAssignment => "expression_statement"
  | .forLoop => "for_statement"
  | .whileLoop => "while_statement"
  | .conditional => "if_statement"
  | .withBlock => "with_statement"
  | .raiseStatement => "raise_statement"
  | .tryBlock => "try_statement"
  | .assertStatement => "assert_statement"
  | .importStatement => "import_statement"
  | .importFrom => "import_from_statement"
  | .globalStatement => "global_statement"
  | .nonlocalStatement => "nonlocal_statement"
  | .passStatement => "pass_statement"
  | .breakStatement => "break_statement"
  | .continueStatement => "continue_statement"

def StatementKind.parts (start stop : Position) : StatementKind → List Tree
  | .function true => [.node ⟨"async", false, none⟩ start start []]
  | .assignment => [.node (.named "assignment") start stop []]
  | .annotated =>
    [.node (.named "assignment") start stop [.node ⟨"type", true, some "type"⟩ stop stop []]]
  | .augmentedAssignment => [.node (.named "augmented_assignment") start stop []]
  | _ => []

def statementTree (kind : StatementKind) (start stop : Position) (children : List Tree) : Tree :=
  .node (.named kind.nodeName) start stop (kind.parts start stop ++ children)

def errorTree (start stop : Position) (children : List Tree) : Tree :=
  .node (.named "ERROR") start stop children

namespace Open

-- A try statement that has none of its clauses is no statement.
def isLacking (o : Open) : Bool :=
  o.kind = .statement .tryBlock && o.clauses = clausesAfter .tryBlock none

def toTree (o : Open) : Tree :=
  let children := o.children.reverse
  if o.isLacking then errorTree o.start o.stop children
  else
    match o.kind with
    | .statement kind => statementTree kind o.start o.stop children
    | .clause word => .node (.named (word ++ "_clause")) o.start o.stop children
    | .source => .node (.named "module") o.start o.stop children

def add (o : Open) (t : Tree) : Open := { o with stop := t.stop, children := t :: o.children }

def endBody (o : Open) : Open := { o with body := .ended }

end Open

def attach (o : Open) : List Open → List Open
  | [] => []
  | outer :: rest => outer.add o.toTree :: rest

theorem length_attach (o : Open) (stack : List Open) : (attach o stack).length = stack.length := by
  cases stack <;> rfl

def endsBody (width : Nat) : List Open → Bool
  | [] => false
  | o :: rest =>
    match o.body with
    | .inline => true
    | .block w => width < w
    | .ended => endsBody width rest

def settle (width : Nat) : List Open → List Open
  | [] => []
  | o :: rest =>
    match o.body with
    | .ended => if endsBody width rest then settle width (attach o rest) else o :: rest
    | _ =>
      if endsBody width (o :: rest) then
        if endsBody width rest then settle width (attach o.endBody rest) else o.endBody :: rest
      else o :: rest
termination_by stack => stack.length
decreasing_by all_goals simp [length_attach]

def finish : List Open → List Open
  | [] => []
  | o :: rest => if o.body = .ended then finish (attach o rest) else o :: rest
termination_by stack => stack.length
decreasing_by simp [length_attach]

def blockWidth : List Open → Nat
  | [] => 0
  | o :: rest =>
    match o.body with
    | .block width => width
    | _ => blockWidth rest

def bodyState (stack : List Open) : Body → BodyState
  | .inline => .inline
  | .below width => if blockWidth stack < width then .block width else .ended

def strayTrees (p : Phrase) : List Tree :=
  p.strays.map fun (start, stop) => errorTree start stop []

def addTree (t : Tree) : List Open → List Open
  | [] => []
  | o :: rest => o.add t :: rest

def openClause (word : String) (p : Phrase) (body : Body) : List Open → Option (List Open)
  | [] => none
  | o :: rest =>
    if o.body ≠ .ended then none
    else
      match o.kind with
      | .statement kind =>
        if o.clauses.contains word then
          let o := { o with clauses := clausesAfter kind (some word) }
          let clause : Open :=
            ⟨.clause word, p.start, p.stop, [], bodyState (o :: rest) body, strayTrees p⟩
          some (clause :: o :: rest)
        else openClause word p body (attach o rest)
      | _ => openClause word p body (attach o rest)
termination_by stack => stack.length
decreasing_by all_goals simp [length_attach]

def place (stack : List Open) (p : Phrase) : List Open :=
  let stack := match p.indent with
    | some width => settle width stack
    | none => stack
  match p.kind with
  | .simple kind =>
    addTree (statementTree kind p.start p.stop (strayTrees p)) (finish stack)
  | .unreadable => addTree (errorTree p.start p.stop []) (finish stack)
  | .header kind body =>
    let stack := finish stack
    ⟨.statement kind, p.start, p.stop, clausesAfter kind none, bodyState stack body, strayTrees p⟩
      :: stack
  | .clause word body =>
    match openClause word p body stack with
    | some stack => stack
    | none => addTree (errorTree p.start p.stop []) (finish stack)

def sourceRoot : Open := ⟨.source, ⟨0, 0⟩, ⟨0, 0⟩, [], .block 0, []⟩

def close : List Open → Tree
  | [] => sourceRoot.toTree
  | [o] => o.toTree
  | o :: outer :: rest => close (attach o (outer :: rest))
termination_by stack => stack.length
decreasing_by simp [attach]

def parse (source : List Char) : Tree :=
  close ((phrases (tokens source)).foldl place [sourceRoot])

instance : Grammar := ⟨fun source => some (parse source)⟩

end LineLedger.Python
