import ComponentAtlas.Text.Quoted

namespace ComponentAtlas

inductive JsonValue where
  | null
  | bool (value : Bool)
  | nat (value : Nat)
  | str (text : String)
  | arr (items : List JsonValue)
  | obj (fields : List (String × JsonValue))

namespace JsonValue
open Text (jsonQuoted)

mutual

def compact : JsonValue → String
  | null => "null"
  | bool true => "true"
  | bool false => "false"
  | nat n => toString n
  | str text => jsonQuoted text
  | arr items => "[" ++ ",".intercalate (compactItems items) ++ "]"
  | obj fields => "\x7b" ++ ",".intercalate (compactFields fields) ++ "\x7d"

def compactItems : List JsonValue → List String
  | [] => []
  | item :: rest => item.compact :: compactItems rest

def compactFields : List (String × JsonValue) → List String
  | [] => []
  | (key, value) :: rest => (jsonQuoted key ++ ":" ++ value.compact) :: compactFields rest

end

def indent (level : Nat) : String :=
  String.ofList (List.replicate (2 * level) ' ')

def spread (level : Nat) (first last : String) (items : List String) : String :=
  match items with
  | [] => first ++ last
  | _ =>
    first ++ "\n" ++ ",\n".intercalate (items.map (indent (level + 1) ++ ·)) ++ "\n" ++ indent level ++ last

mutual

def prettyAt (level : Nat) : JsonValue → String
  | arr items => spread level "[" "]" (prettyItems (level + 1) items)
  | obj fields => spread level "\x7b" "\x7d" (prettyFields (level + 1) fields)
  | null => "null"
  | bool true => "true"
  | bool false => "false"
  | nat n => toString n
  | str text => jsonQuoted text

def prettyItems (level : Nat) : List JsonValue → List String
  | [] => []
  | item :: rest => item.prettyAt level :: prettyItems level rest

def prettyFields (level : Nat) : List (String × JsonValue) → List String
  | [] => []
  | (key, value) :: rest => (jsonQuoted key ++ ": " ++ value.prettyAt level) :: prettyFields level rest

end

def pretty (v : JsonValue) : String := v.prettyAt 0

def optional (key : String) (value : Option JsonValue) : List (String × JsonValue) :=
  match value with
  | some v => [(key, v)]
  | none => []

def nonEmpty (key : String) (items : List JsonValue) : List (String × JsonValue) :=
  match items with
  | [] => []
  | _ => [(key, arr items)]

end JsonValue
end ComponentAtlas
