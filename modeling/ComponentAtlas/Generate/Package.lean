import ComponentAtlas.Diagnostic
import ComponentAtlas.FileTree
import ComponentAtlas.Json.Reader

namespace ComponentAtlas

-- The fields of the metadata file, read from an object or from a list of four.
structure PackageFields where
  name : Option String
  version : Option String
  types : Option String
  typings : Option String

namespace PackageFields
open Json Json.Reader

def shape : String := "struct PackageJson"

inductive Key where
  | name
  | version
  | types
  | typings
deriving DecidableEq

def Key.text : Key → String
  | name => "name"
  | version => "version"
  | types => "types"
  | typings => "typings"

def Key.ofText? (text : String) : Option Key :=
  [Key.name, Key.version, Key.types, Key.typings].find? (·.text = text)

-- Fields seen so far, newest first; a null counts as seen.
abbrev Seen := List (Key × Option String)

def ofSeen (seen : Seen) : PackageFields :=
  let get (key : Key) : Option String := (seen.lookup key).join
  { name := get .name, version := get .version, types := get .types, typings := get .typings }

def readFields : (fuel : Nat) → (first : Bool) → Seen → Reader Seen
  | 0, _, seen => pure seen
  | fuel + 1, first, seen => do
    if ← hasKey first then
      let text ← readString true
      match Key.ofText? text with
      | some key =>
        if (seen.lookup key).isSome then throw (.unplaced s!"duplicate field \x60{text}\x60")
        else do
          expectColon
          let value ← readOptionalText
          readFields fuel false ((key, value) :: seen)
      | none => do
        expectColon
        skipAny
        readFields fuel false seen
    else return seen

def readInOrder : List Key → (done : Nat) → Seen → Reader Seen
  | [], _, seen => pure seen
  | key :: rest, done, seen => do
    if ← hasItem (done = 0) then
      let value ← readOptionalText
      readInOrder rest (done + 1) ((key, value) :: seen)
    else throw (.unplaced s!"invalid length {done}, expected {shape} with 4 elements")

def reader : Reader PackageFields := placing do
  let fuel := (← get).rest.length + 1
  match ← peekToken with
  | none => failAhead endOfValue
  | some '[' => do
    eat
    return ofSeen (← thenAlways (readInOrder [.name, .version, .types, .typings] 0 []) closeList)
  | some '\x7b' => do
    eat
    return ofSeen (← thenAlways (readFields fuel true []) closeObject)
  | some _ => wrongType shape

end PackageFields

structure Package where
  root : Path
  name : String
  version : Option String
  -- The declared typings, relative to the root.
  types : Path
deriving DecidableEq, Repr

namespace Package

def metadataPath (dir : Path) : Path := dir.joinText "package.json"

def isBlankName (name : String) : Bool := (Text.trimString name).isEmpty

def ofText (dir : Path) (text : String) : Except GenerateError Package :=
  match Json.read PackageFields.reader text with
  | .error reason => .error (.packageMetadata (metadataPath dir) reason)
  | .ok fields =>
    match fields.name.filter (!isBlankName ·) with
    | none => .error (.packageMetadata (metadataPath dir) "missing 'name' field")
    | some name =>
      .ok
        { root := dir
          name
          version := fields.version
          types := ⟨(fields.types.or fields.typings).getD "index.d.ts"⟩ }

def load (t : FileTree) (dir : Path) : Except GenerateError Package :=
  match t.readText (metadataPath dir) with
  | .error cause => .error (.packageMetadata (metadataPath dir) cause.message)
  | .ok text => ofText dir text

def loadedEntry (p : Package) : LogEntry :=
  { level := .debug
    topic := .package
    message := s!"[package] loaded {p.name} from {(metadataPath p.root).text}" }

def dropSuffix? (text suffix : String) : Option String :=
  if suffix.toList.reverse.isPrefixOf text.toList.reverse then
    some (String.ofList (text.toList.take (text.length - suffix.length)))
  else none

def typesStem (p : Package) : String :=
  ([".d.ts", ".ts", ".tsx", ".js"].findSome? (dropSuffix? p.types.text)).getD p.types.text

def entryCandidates (p : Package) (sourceDir : Path) : List Path :=
  let first := p.root.joinText p.typesStem
  let fallback := (p.root.join sourceDir).joinText "index"
  if first.components = fallback.components then [first] else [first, fallback]

end Package
end ComponentAtlas
