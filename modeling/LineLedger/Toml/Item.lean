set_option autoImplicit false

namespace LineLedger.Toml

abbrev Key := List Char

inductive Item where
  | text (value : List Char)
  | scalar
  | moment (spelling : List Char)
  | array (items : List Item)
  | inline (entries : List (Key × Item))
  -- An implied table was named only as a part of a longer key or header; a dotted one was named as
  -- a part of a key.
  | table (isImplied isDotted : Bool) (entries : List (Key × Item))
  | tables (tables : List Item)

namespace Item

def emptyTable : Item := .table false false []

def setEntry (key : Key) (item : Item) : List (Key × Item) → List (Key × Item)
  | [] => [(key, item)]
  | (other, old) :: rest =>
    if other = key then (key, item) :: rest else (other, old) :: setEntry key item rest

def update (isDotted : Bool) (change : Item → Option Item) : List Key → Item → Option Item
  | [], item => change item
  | key :: rest, .table isImplied wasDotted entries =>
    let replace (item : Item) : Item := .table isImplied wasDotted (setEntry key item entries)
    match entries.lookup key with
    | none => (update isDotted change rest (.table true isDotted [])).map replace
    | some (.table implied dotted inner) =>
      if isDotted && !implied then none
      else (update isDotted change rest (.table implied dotted inner)).map replace
    | some (.tables all) =>
      match all.getLast? with
      | some last =>
        (update isDotted change rest last).map fun item => replace (.tables (all.dropLast ++ [item]))
      | none => none
    | some _ => none
  | _ :: _, _ => none

def addValue (path : List Key) (key : Key) (value : Item) : Item → Option Item :=
  update true (fun item =>
    match item with
    | .table isImplied isDotted entries =>
      if isDotted = path.isEmpty then none
      else if (entries.lookup key).isSome then none
      else some (.table isImplied isDotted (entries ++ [(key, value)]))
    | _ => none) path

def addTable (path : List Key) (key : Key) : Item → Option Item :=
  update false (fun item =>
    match item with
    | .table isImplied isDotted entries =>
      match entries.lookup key with
      | none => some (.table isImplied isDotted (entries ++ [(key, emptyTable)]))
      | some (.table true false inner) =>
        some (.table isImplied isDotted (setEntry key (.table false false inner) entries))
      | some _ => none
    | _ => none) path

def addToTables (path : List Key) (key : Key) : Item → Option Item :=
  update false (fun item =>
    match item with
    | .table isImplied isDotted entries =>
      match entries.lookup key with
      | none => some (.table isImplied isDotted (entries ++ [(key, .tables [emptyTable])]))
      | some (.tables all) =>
        some (.table isImplied isDotted (setEntry key (.tables (all ++ [emptyTable])) entries))
      | some _ => none
    | _ => none) path

def entries : Item → List (Key × Item)
  | .table _ _ entries => entries
  | .inline entries => entries
  | _ => []

end Item

end LineLedger.Toml
