/-!
Values of a configuration document, and how its statements build one table. A table may be named in
a heading once; what a dotted key made grows by dotted keys only, and what stands in braces does not
grow at all.
-/

set_option autoImplicit false

namespace Ventilation.Toml

/-- How a table came to be. -/
structure Origin where
  /-- Only as a part of longer names so far. -/
  implicit : Bool
  /-- By a dotted key. -/
  dotted : Bool
  deriving DecidableEq, Repr

inductive Value where
  | string (text : String)
  | integer (n : Int)
  | float (x : Float)
  | boolean (b : Bool)
  | dateTime
  | array (items : List Value)
  | inline (entries : List (String × Value))
  | table (origin : Origin) (entries : List (String × Value))
  /-- The tables of one heading in double brackets. -/
  | tables (items : List Value)

abbrev Entries := List (String × Value)

/-- A table while it is built. -/
structure Body where
  origin : Origin
  entries : Entries

def Body.value (b : Body) : Value := .table b.origin b.entries

def Body.empty (implicit dotted : Bool) : Body := ⟨⟨implicit, dotted⟩, []⟩

/-- The table of a document. -/
def Body.root : Body := Body.empty false false

def find? (key : String) (entries : Entries) : Option Value := entries.lookup key

/-- Gives a key a value, in place of an earlier one. -/
def put (key : String) (value : Value) : Entries → Entries
  | [] => [(key, value)]
  | (k, v) :: rest => if k = key then (key, value) :: rest else (k, v) :: put key value rest

/-- Changes the table at the end of a path, the last one of those in double brackets. Tables on the
way that are missing come to be as parts of a name; a dotted path does not pass through a table that
has a heading of its own. -/
def modifyAt (dotted : Bool) (change : Body → Option Body) : List String → Body → Option Body
  | [], body => change body
  | key :: path, body =>
    match find? key body.entries with
    | none =>
      (modifyAt dotted change path (.empty true dotted)).map fun inner =>
        { body with entries := put key inner.value body.entries }
    | some (.table origin entries) =>
      if dotted && !origin.implicit then none
      else
        (modifyAt dotted change path ⟨origin, entries⟩).map fun inner =>
          { body with entries := put key inner.value body.entries }
    | some (.tables items) =>
      match items.getLast? with
      | some (.table origin entries) =>
        (modifyAt dotted change path ⟨origin, entries⟩).map fun inner =>
          { body with entries := put key (.tables (items.dropLast ++ [inner.value])) body.entries }
      | _ => none
    | some _ => none

/-- A key with the dotted path before it, and its value. -/
structure Pair where
  path : List String
  key : String
  value : Value

/-- Adds a pair. Its key is new, and it goes to a table that was made in the same way: by dotted
keys if the key has dots, and otherwise not. -/
def Body.insert (body : Body) (p : Pair) : Option Body :=
  let add (b : Body) : Option Body :=
    if b.origin.dotted = p.path.isEmpty || (find? p.key b.entries).isSome then none
    else some { b with entries := b.entries ++ [(p.key, p.value)] }
  modifyAt true add p.path body

/-- Opens the table of a heading. -/
def openTable (key : String) (body : Body) : Option Body :=
  match find? key body.entries with
  | none => some { body with entries := put key (Body.empty false false).value body.entries }
  | some (.table origin entries) =>
    if origin.implicit && !origin.dotted then
      some { body with entries := put key (.table ⟨false, false⟩ entries) body.entries }
    else none
  | some _ => none

/-- Opens one more table of a heading in double brackets. -/
def openItem (key : String) (body : Body) : Option Body :=
  let item := (Body.empty false false).value
  match find? key body.entries with
  | none => some { body with entries := put key (.tables [item]) body.entries }
  | some (.tables items) =>
    some { body with entries := put key (.tables (items ++ [item])) body.entries }
  | some _ => none

inductive Statement where
  | heading (path : List String) (key : String)
  | itemHeading (path : List String) (key : String)
  | pair (p : Pair)

/-- A document while it is built: its table, and the table that pairs go to. -/
structure Building where
  body : Body
  current : List String

def Building.add (b : Building) : Statement → Option Building
  | .heading path key =>
    (modifyAt false (openTable key) path b.body).map fun body => ⟨body, path ++ [key]⟩
  | .itemHeading path key =>
    (modifyAt false (openItem key) path b.body).map fun body => ⟨body, path ++ [key]⟩
  | .pair p =>
    (modifyAt false (fun body => body.insert p) b.current b.body).map fun body => { b with body }

/-- The entries of a document, unless two of its statements are at odds. -/
def ofStatements? (statements : List Statement) : Option Entries :=
  (statements.foldlM Building.add ⟨.root, []⟩).map fun b => b.body.entries

end Ventilation.Toml
