set_option autoImplicit false

namespace LineLedger.Glob

inductive Piece where
  | literal (c : Char)
  | anyByte
  | star
  | anyFolders
  | anythingBelow
  | foldersBetween
  | oneOf (isNegated : Bool) (ranges : List (Char × Char))
  | alternatives (branches : List (List Piece))

abbrev Pattern := List Piece

section Parse

-- An alternative group that is still open: the pieces before it and its finished branches, all
-- last first.
structure Group where
  before : List Piece
  branches : List (List Piece)

structure Parsing where
  pieces : List Piece
  groups : List Group
  previous : Option Char
  -- After a bracket that is never closed, brackets stand for themselves.
  bracketsArePlain : Bool

def Parsing.start : Parsing := ⟨[], [], none, false⟩

def Parsing.push (p : Parsing) (piece : Piece) : Parsing := { p with pieces := piece :: p.pieces }

def Parsing.inGroup (p : Parsing) : Bool := !p.groups.isEmpty

def Parsing.openGroup (p : Parsing) : Parsing :=
  { p with pieces := [], groups := ⟨p.pieces, []⟩ :: p.groups }

def Parsing.nextBranch (p : Parsing) : Parsing :=
  match p.groups with
  | [] => p.push (.literal ',')
  | group :: rest =>
    { p with
      pieces := []
      groups := { group with branches := p.pieces.reverse :: group.branches } :: rest }

def Parsing.closeGroup (p : Parsing) : Option Parsing :=
  match p.groups with
  | [] => none
  | group :: rest =>
    let branches := (p.pieces.reverse :: group.branches).reverse
    some { p with pieces := .alternatives branches :: group.before, groups := rest }

def classRanges (ranges : List (Char × Char)) (isFirst inRange : Bool) :
    List Char → Option (Option (List (Char × Char) × List Char))
  | [] => none
  | c :: rest =>
    if c = ']' && !isFirst then
      some (some ((if inRange then ('-', '-') :: ranges else ranges).reverse, rest))
    else if c = '-' && !isFirst && !inRange then classRanges ranges false true rest
    else if inRange then
      match ranges with
      | (low, _) :: others =>
        if c < low then some none else classRanges ((low, c) :: others) false false rest
      | [] => some none
    else classRanges ((c, c) :: ranges) false false rest

theorem length_of_classRanges {ranges found : List (Char × Char)} {isFirst inRange : Bool}
    {text after : List Char}
    (read : classRanges ranges isFirst inRange text = some (some (found, after))) :
    after.length < text.length := by
  fun_induction classRanges ranges isFirst inRange text <;> simp_all <;> grind

def isSlash (c : Option Char) : Bool := c = some '/'

def doubleStar (p : Parsing) (rest : List Char) : Parsing × Nat :=
  let plain := ((p.push .star).push .star, 0)
  let atStart := p.pieces.isEmpty
  if atStart then
    match rest with
    | [] => (p.push .anyFolders, 0)
    | '/' :: _ => ({ p.push .anyFolders with previous := some '/' }, 1)
    | _ => plain
  else if !isSlash p.previous &&
      !(p.inGroup && (p.previous = some ',' || p.previous = some '{')) then plain
  else
    let replaceLast (piece : Piece) : Parsing :=
      match p.pieces with
      | .anyFolders :: before => { p with pieces := .anyFolders :: before }
      | .anythingBelow :: before => { p with pieces := .anythingBelow :: before }
      | _ :: before => { p with pieces := piece :: before }
      | [] => p.push piece
    match rest with
    | [] => (replaceLast .anythingBelow, 0)
    | '/' :: _ => ({ replaceLast .foldersBetween with previous := some '/' }, 1)
    | c :: _ =>
      if (c = ',' || c = '}') && p.inGroup then (replaceLast .anythingBelow, 0) else plain

def parseFrom (p : Parsing) (text : List Char) : Option Parsing :=
  match text with
  | [] => some p
  | '*' :: '*' :: rest =>
    let (next, taken) := doubleStar p rest
    let previous := if taken = 0 then some '*' else next.previous
    parseFrom { next with previous } (rest.drop taken)
  | '\\' :: c :: rest => parseFrom { p.push (.literal c) with previous := some c } rest
  | ['\\'] => none
  | c :: rest =>
    let next (p : Parsing) : Parsing := { p with previous := some c }
    if c = '?' then parseFrom (next (p.push .anyByte)) rest
    else if c = '*' then parseFrom (next (p.push .star)) rest
    else if c = '{' then parseFrom (next p.openGroup) rest
    else if c = ',' then parseFrom (next p.nextBranch) rest
    else if c = '}' then
      match p.closeGroup with
      | some closed => parseFrom (next closed) rest
      | none => none
    else if c = '[' && !p.bracketsArePlain then
      let isNegated := rest.head? = some '!' || rest.head? = some '^'
      match _read : classRanges [] true false (rest.drop (if isNegated then 1 else 0)) with
      | some (some (ranges, after)) =>
        parseFrom { p.push (.oneOf isNegated ranges) with previous := some ']' } after
      | some none => none
      | none => parseFrom { next (p.push (.literal c)) with bracketsArePlain := true } rest
    else parseFrom (next (p.push (.literal c))) rest
termination_by text.length
decreasing_by
  all_goals simp only [List.length_cons, List.length_drop]
  all_goals try omega
  have := length_of_classRanges _read
  simp only [List.length_drop] at this
  omega

def parse? (text : List Char) : Option Pattern :=
  match parseFrom .start text with
  | some ⟨pieces, [], _, _⟩ => some pieces.reverse
  | _ => none

end Parse

section Match

abbrev Bytes := List UInt8

def slash : UInt8 := 47

def bytesOf (c : Char) : Bytes := (String.singleton c).toUTF8.toList

def byteRanges (range : Char × Char) : List (UInt8 × UInt8) :=
  let low := bytesOf range.1
  let high := bytesOf range.2
  if range.1 = range.2 then low.map fun b => (b, b)
  else
    match low.getLast?, high with
    | some last, first :: others =>
      low.dropLast.map (fun b => (b, b)) ++ (last, first) :: others.map fun b => (b, b)
    | _, _ => []

def inClass (ranges : List (Char × Char)) (b : UInt8) : Bool :=
  ranges.any fun range => (byteRanges range).any fun (low, high) => low ≤ b && b ≤ high

def afterBytes? : Bytes → Bytes → Option Bytes
  | [], text => some text
  | _ :: _, [] => none
  | b :: start, c :: text => if b = c then afterBytes? start text else none

def afterName (continues : Bytes → Bool) : Bytes → Bool
  | [] => continues []
  | b :: rest => continues (b :: rest) || (b ≠ slash && afterName continues rest)

def afterAnything (continues : Bytes → Bool) : Bytes → Bool
  | [] => continues []
  | b :: rest => continues (b :: rest) || afterAnything continues rest

def afterSlash (continues : Bytes → Bool) : Bytes → Bool
  | [] => false
  | b :: rest => (b = slash && continues rest) || afterSlash continues rest

mutual

def matchPieces (continues : Bytes → Bool) : List Piece → Bytes → Bool
  | [], text => continues text
  | piece :: rest, text => matchPiece (matchPieces continues rest) piece text

def matchPiece (continues : Bytes → Bool) : Piece → Bytes → Bool
  | .literal c, text => (afterBytes? (bytesOf c) text).any continues
  | .anyByte, text =>
    match text with
    | b :: rest => b ≠ slash && continues rest
    | [] => false
  | .star, text => afterName continues text
  | .anyFolders, text => continues text || afterSlash continues text
  | .anythingBelow, text =>
    match text with
    | b :: rest => b = slash && afterAnything continues rest
    | [] => false
  | .foldersBetween, text =>
    match text with
    | b :: rest => b = slash && (continues rest || afterSlash continues rest)
    | [] => false
  | .oneOf isNegated ranges, text =>
    match text with
    | b :: rest => inClass ranges b ≠ isNegated && continues rest
    | [] => false
  | .alternatives branches, text =>
    matchBranches continues branches text || (allEmpty branches && continues text)

-- Empty branches are left out.
def matchBranches (continues : Bytes → Bool) : List (List Piece) → Bytes → Bool
  | [], _ => false
  | [] :: rest, text => matchBranches continues rest text
  | (piece :: pieces) :: rest, text =>
    matchPiece (matchPieces continues pieces) piece text || matchBranches continues rest text

def allEmpty : List (List Piece) → Bool
  | [] => true
  | branch :: rest => branch.isEmpty && allEmpty rest

end

def fits (pattern : Pattern) (path : String) : Bool :=
  match pattern with
  | [.anyFolders] => true
  | _ => matchPieces List.isEmpty pattern path.toUTF8.toList

end Match

end LineLedger.Glob
