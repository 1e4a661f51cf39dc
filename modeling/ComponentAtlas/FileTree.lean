import ComponentAtlas.Failure

namespace ComponentAtlas

inductive Content where
  | text (text : String)
  -- Bytes that are no text.
  | binary
deriving DecidableEq, Repr, Inhabited

inductive Entry where
  | file (content : Content)
  | directory
deriving DecidableEq, Repr, Inhabited

abbrev Location := List String

structure FileTree where
  workingDirectory : Location
  entries : List (Location × Entry)
deriving Repr

namespace FileTree

-- The root is a directory of every tree.
def entry? (t : FileTree) (place : Location) : Option Entry :=
  match place with
  | [] => some .directory
  | _ => t.entries.lookup place

def set (t : FileTree) (place : Location) (entry : Entry) : FileTree :=
  { t with entries := (place, entry) :: t.entries.filter (·.1 != place) }

-- An empty tree in which the working directory and the directories above it exist.
def empty (workingDirectory : Location) : FileTree :=
  (List.range workingDirectory.length).foldl
    (fun t n => t.set (workingDirectory.take (n + 1)) .directory)
    { workingDirectory, entries := [] }

def requireDirectory (t : FileTree) (place : Location) : Except IoError Unit :=
  match t.entry? place with
  | some .directory => .ok ()
  | some (.file _) => .error .notDirectory
  | none => .error .notFound

-- Follows the pieces of a path; the last one need not exist.
def walk (t : FileTree) : Location → List (List Char) → Except IoError Location
  | place, [] => .ok place
  | place, seg :: rest =>
    match t.requireDirectory place with
    | .error e => .error e
    | .ok () =>
      if seg = [] || seg = ['.'] then walk t place rest
      else if seg = ['.', '.'] then walk t place.dropLast rest
      else walk t (place ++ [String.ofList seg]) rest

def locateSegments (t : FileTree) (p : Path) (segments : List (List Char)) : Except IoError Location :=
  if p.text.isEmpty then .error .notFound
  else if p.isAbsolute then t.walk [] segments
  else t.walk t.workingDirectory segments

-- The place a path leads to; nothing need be there, but the way to it exists.
def locate (t : FileTree) (p : Path) : Except IoError Location :=
  t.locateSegments p (Path.segments p.text.toList)

def lookup? (t : FileTree) (p : Path) : Option Entry :=
  match t.locate p with
  | .ok place => t.entry? place
  | .error _ => none

def isFile (t : FileTree) (p : Path) : Bool :=
  match t.lookup? p with
  | some (.file _) => true
  | _ => false

def isDirectory (t : FileTree) (p : Path) : Bool :=
  t.lookup? p = some .directory

def readText (t : FileTree) (p : Path) : Except IoError String :=
  match t.locate p with
  | .error e => .error e
  | .ok place =>
    match t.entry? place with
    | none => .error .notFound
    | some .directory => .error .isDirectory
    | some (.file .binary) => .error .notText
    | some (.file (.text text)) => .ok text

-- Creates or replaces a file; its directory must exist.
def write (t : FileTree) (p : Path) (content : Content) : Except IoError FileTree :=
  match t.locate p with
  | .error .notFound =>
    -- A missing file named as a directory.
    if p.text.toList.getLast? = some '/' && (t.locateSegments p (Path.segments p.text.toList).dropLast).isOk
    then .error .isDirectory else .error .notFound
  | .error e => .error e
  | .ok place =>
    match t.entry? place with
    | some .directory => .error .isDirectory
    | _ =>
      match t.requireDirectory place.dropLast with
      | .error e => .error e
      | .ok () => .ok (t.set place (.file content))

def dropTrailing (segments : List (List Char)) : List (List Char) :=
  (segments.reverse.dropWhile (·.isEmpty)).reverse

def makeDirectory (t : FileTree) (p : Path) : Except IoError FileTree :=
  match t.locateSegments p (dropTrailing (Path.segments p.text.toList)) with
  | .error e => .error e
  | .ok place =>
    match t.entry? place with
    | some _ => .error .alreadyExists
    | none =>
      match t.requireDirectory place.dropLast with
      | .error e => .error e
      | .ok () => .ok (t.set place .directory)

-- Makes a directory and those above it that are missing; `depth` bounds the way up.
def makeDirectories : (depth : Nat) → FileTree → Path → Except IoError FileTree
  | 0, _, _ => .error .notFound
  | depth + 1, t, p =>
    if p.text.isEmpty then .ok t
    else
      match t.makeDirectory p with
      | .ok t' => .ok t'
      | .error .notFound =>
        match p.parent? with
        | none => .error (.other "failed to create whole tree")
        | some above =>
          match makeDirectories depth t above with
          | .error e => .error e
          | .ok t' =>
            match t'.makeDirectory p with
            | .ok t'' => .ok t''
            | .error e => if t'.isDirectory p then .ok t' else .error e
      | .error e => if t.isDirectory p then .ok t else .error e

def createDirectories (t : FileTree) (p : Path) : Except IoError FileTree :=
  makeDirectories (p.components.length + 2) t p

-- Removes a file, or a directory with everything below it.
def remove (t : FileTree) (p : Path) : FileTree :=
  match t.locate p with
  | .error _ => t
  | .ok place => { t with entries := t.entries.filter fun (l, _) => !place.isPrefixOf l }

def filesBelow (t : FileTree) (p : Path) : List (Location × Content) :=
  match t.locate p with
  | .error _ => []
  | .ok place =>
    t.entries.filterMap fun (l, entry) =>
      match entry with
      | .directory => none
      | .file content =>
        if place.isPrefixOf l && place.length < l.length then some (l.drop place.length, content) else none

end FileTree
end ComponentAtlas
