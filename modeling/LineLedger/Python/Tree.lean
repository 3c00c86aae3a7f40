set_option autoImplicit false

namespace LineLedger.Python

structure Position where
  row : Nat
  column : Nat
deriving DecidableEq, Repr

inductive StatementKind where
  | function (isAsync : Bool)
  | classDefinition
  | decorator
  | returnStatement
  | deleteStatement
  | expression
  | assignment
  | annotated
  | augmentedAssignment
  | forLoop
  | whileLoop
  | conditional
  | withBlock
  | raiseStatement
  | tryBlock
  | assertStatement
  | importStatement
  | importFrom
  | globalStatement
  | nonlocalStatement
  | passStatement
  | breakStatement
  | continueStatement
deriving DecidableEq, Repr

def StatementKind.code : StatementKind → String
  | .function isAsync => if isAsync then "af" else "f"
  | .classDefinition => "c"
  | .decorator => "dec"
  | .returnStatement => "r"
  | .deleteStatement => "d"
  | .expression => "e"
  | .assignment => "a"
  | .annotated => "an"
  | .augmentedAssignment => "aa"
  | .forLoop => "for"
  | .whileLoop => "w"
  | .conditional => "if"
  | .withBlock => "with"
  | .raiseStatement => "ra"
  | .tryBlock => "t"
  | .assertStatement => "as"
  | .importStatement => "im"
  | .importFrom => "imf"
  | .globalStatement => "g"
  | .nonlocalStatement => "n"
  | .passStatement => "p"
  | .breakStatement => "b"
  | .continueStatement => "co"

structure Label where
  kind : String
  -- Words and signs have no name of their own.
  isNamed : Bool
  field : Option String
deriving DecidableEq, Repr

def Label.named (kind : String) : Label := ⟨kind, true, none⟩

inductive Tree where
  | node (label : Label) (start stop : Position) (children : List Tree)

namespace Tree

def label : Tree → Label
  | .node label _ _ _ => label

def start : Tree → Position
  | .node _ start _ _ => start

def stop : Tree → Position
  | .node _ _ stop _ => stop

def children : Tree → List Tree
  | .node _ _ _ children => children

def kind (t : Tree) : String := t.label.kind

def isError (t : Tree) : Bool := t.kind = "ERROR"

def opensScope (t : Tree) : Bool := t.kind = "function_definition" || t.kind = "class_definition"

def clauseNames : List String :=
  ["elif_clause", "else_clause", "except_clause", "except_group_clause", "finally_clause"]

def isClause (t : Tree) : Bool := clauseNames.contains t.kind

def hasChild (t : Tree) (kind : String) : Bool := t.children.any (·.kind = kind)

def hasField (t : Tree) (field : String) : Bool := t.children.any (·.label.field = some field)

def firstNamed? (t : Tree) : Option Tree := t.children.find? (·.label.isNamed)

def expressionKind (t : Tree) : StatementKind :=
  match t.firstNamed? with
  | some inner =>
    if inner.kind = "assignment" then if inner.hasField "type" then .annotated else .assignment
    else if inner.kind = "augmented_assignment" then .augmentedAssignment
    else .expression
  | none => .expression

def statementNames : List (String × StatementKind) := [
  ("class_definition", .classDefinition),
  ("decorator", .decorator),
  ("return_statement", .returnStatement),
  ("delete_statement", .deleteStatement),
  ("for_statement", .forLoop),
  ("while_statement", .whileLoop),
  ("if_statement", .conditional),
  ("match_statement", .conditional),
  ("case_clause", .conditional),
  ("with_statement", .withBlock),
  ("raise_statement", .raiseStatement),
  ("try_statement", .tryBlock),
  ("assert_statement", .assertStatement),
  ("import_statement", .importStatement),
  ("import_from_statement", .importFrom),
  ("future_import_statement", .importFrom),
  ("global_statement", .globalStatement),
  ("nonlocal_statement", .nonlocalStatement),
  ("pass_statement", .passStatement),
  ("break_statement", .breakStatement),
  ("continue_statement", .continueStatement),
  ("print_statement", .expression),
  ("exec_statement", .expression),
  ("type_alias_statement", .expression)]

def ownStatement? (t : Tree) : Option StatementKind :=
  if t.kind = "function_definition" then some (.function (t.hasChild "async"))
  else if t.kind = "expression_statement" then some t.expressionKind
  else statementNames.lookup t.kind

def statement? (t : Tree) : List Tree → Option StatementKind
  | [] => if t.isClause then none else t.ownStatement?
  | parent :: outer => if t.isClause then statement? parent outer else t.ownStatement?

mutual

def size : Tree → Nat
  | .node _ _ _ children => sizes children + 1

def sizes : List Tree → Nat
  | [] => 0
  | t :: rest => size t + sizes rest

end

theorem size_eq (t : Tree) : t.size = sizes t.children + 1 := by
  cases t
  rfl

end Tree

structure Node where
  tree : Tree
  around : List Tree

namespace Node

def children (n : Node) : List Node := n.tree.children.map (⟨·, n.tree :: n.around⟩)

def statement? (n : Node) : Option StatementKind := n.tree.statement? n.around

end Node

end LineLedger.Python
