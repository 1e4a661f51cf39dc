import ComponentAtlas.Text.Quoted
import ComponentAtlas.Toml.Reader

namespace ComponentAtlas

inductive Setting where
  | text (text : String)
  | letter (value : Char)
  | flag (value : Bool)
  -- A number known to have no sign.
  | count (value : Nat)
  | number (value : Int)
  | real (value : Decimal.Number)
  | list (items : List Setting)
  | group (fields : List (String × Setting))

namespace Setting

def shown : Setting → String
  | text t => s!"string {Text.shown t}"
  | letter c => s!"char {Text.shownLetter c}"
  | flag true => "bool true"
  | flag false => "bool false"
  | count n => s!"unsigned int \x60{n}\x60"
  | number n => s!"signed int \x60{n}\x60"
  | real x => s!"float \x60{Decimal.plain x}\x60"
  | list _ => "sequence"
  | group _ => "map"

-- A moment counts as a group with its text under this key.
def momentKey : String := "$__toml_private_datetime"

mutual

def ofToml : TomlValue → Setting
  | .text t => text t
  | .integer n => number n
  | .float x => real x
  | .boolean b => flag b
  | .moment t => group [(momentKey, text t)]
  | .list items => list (ofItems items)
  | .table entries => group (ofEntries entries)

def ofItems : List TomlValue → List Setting
  | [] => []
  | item :: rest => ofToml item :: ofItems rest

def ofEntries : List (String × TomlValue) → List (String × Setting)
  | [] => []
  | (key, value) :: rest => (key, ofToml value) :: ofEntries rest

end

mutual

-- Groups are joined key by key; anything else is replaced.
def overlay : (lower upper : Setting) → Setting
  | group lower, group upper => group (overlayFields lower upper)
  | _, upper => upper

def overlayFields : (lower upper : List (String × Setting)) → List (String × Setting)
  | [], upper => upper
  | (key, value) :: rest, upper =>
    match upper.lookup key with
    | some newer => (key, overlay value newer) :: overlayFields rest (upper.filter (·.1 != key))
    | none => (key, value) :: overlayFields rest upper

end

def nested (value : Setting) : (path : List String) → Setting
  | [] => value
  | key :: rest => group [(key, nested value rest)]

end Setting
end ComponentAtlas
