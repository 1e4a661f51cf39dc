import ComponentAtlas.Decimal.Shortest

namespace ComponentAtlas

inductive TomlValue where
  | text (text : String)
  | integer (value : Int)
  | float (value : Decimal.Number)
  | boolean (value : Bool)
  -- A date, a time or both, in normal form.
  | moment (text : String)
  | list (items : List TomlValue)
  | table (entries : List (String × TomlValue))

end ComponentAtlas
