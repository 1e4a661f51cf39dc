import ComponentAtlas.Ordered
import ComponentAtlas.Toml.Value

namespace ComponentAtlas.Toml

inductive Origin where
  | header
  | implied
  | dotted
deriving DecidableEq, Repr

inductive Item where
  | value (value : TomlValue)
  | table (origin : Origin) (entries : List (String × Item))
  -- An array of tables, newest last; each has a header.
  | tables (elements : List (List (String × Item)))

abbrev Entries := List (String × Item)

-- Changes the table at the end of a path; missing tables on the way are made.
def changeAt (dotted : Bool) (change : Origin → Entries → Option Entries) :
    (path : List String) → Origin → Entries → Option Entries
  | [], origin, entries => change origin entries
  | key :: path, _, entries =>
    match entries.lookup key with
    | none => do
      let origin := if dotted then Origin.dotted else .implied
      let inner ← changeAt dotted change path origin []
      return Ordered.put key (.table origin inner) entries
    | some (.value _) => none
    | some (.table origin inner) =>
      if dotted && origin = .header then none
      else do
        let inner ← changeAt dotted change path origin inner
        return Ordered.put key (.table origin inner) entries
    | some (.tables elements) =>
      match elements.reverse with
      | [] => none
      | last :: before => do
        let last ← changeAt dotted change path .header last
        return Ordered.put key (.tables (last :: before).reverse) entries

-- A key is set once, and a dotted key only in a table made by dotted keys.
def insertValue (key : String) (value : TomlValue) (isDotted : Bool) (origin : Origin)
    (entries : Entries) : Option Entries :=
  if (origin = .dotted) != isDotted then none
  else if (entries.lookup key).isSome then none
  else some (Ordered.put key (.value value) entries)

def setValue (key : List String) (value : TomlValue) (entries : Entries) : Option Entries :=
  match key.reverse with
  | [] => none
  | last :: before =>
    changeAt true (insertValue last value (!before.isEmpty)) before.reverse .header entries

def openTable (key : String) (_ : Origin) (entries : Entries) : Option Entries :=
  match entries.lookup key with
  | none => some (Ordered.put key (.table .header []) entries)
  | some (.table .implied inner) => some (Ordered.put key (.table .header inner) entries)
  | some _ => none

def openElement (key : String) (_ : Origin) (entries : Entries) : Option Entries :=
  match entries.lookup key with
  | none => some (Ordered.put key (.tables [[]]) entries)
  | some (.tables elements) => some (Ordered.put key (.tables (elements ++ [[]])) entries)
  | some _ => none

def openAt (step : String → Origin → Entries → Option Entries) (path : List String)
    (entries : Entries) : Option Entries :=
  match path.reverse with
  | [] => none
  | last :: before => changeAt false (step last) before.reverse .header entries

mutual

def Item.finish : Item → TomlValue
  | .value value => value
  | .table _ entries => .table (finishEntries entries)
  | .tables elements => .list (finishElements elements)

def finishEntries : List (String × Item) → List (String × TomlValue)
  | [] => []
  | (key, item) :: rest => (key, item.finish) :: finishEntries rest

def finishElements : List (List (String × Item)) → List TomlValue
  | [] => []
  | entries :: rest => .table (finishEntries entries) :: finishElements rest

end

end ComponentAtlas.Toml
