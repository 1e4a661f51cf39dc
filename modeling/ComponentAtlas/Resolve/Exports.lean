import ComponentAtlas.Resolve.Lookup

namespace ComponentAtlas

structure ExportedClass where
  -- The file the export was found in.
  via : Path
  declaredName : String
  declaredIn : Path
deriving DecidableEq, Repr, Inhabited

structure ExportList where
  classes : Ordered ExportedClass
  -- Named re-exports that failed for another reason than a missing name.
  failed : List (String × ResolveError)
  -- The first exported name of every declaration in the list.
  names : List (Hop × String)

namespace ExportList

def empty : ExportList := { classes := .empty, failed := [], names := [] }

-- A name is taken once it is exported or its re-export has failed.
def isTaken (l : ExportList) (name : String) : Bool :=
  l.classes.contains name || l.failed.any (·.1 = name)

def insert (l : ExportList) (name : String) (c : ExportedClass) : ExportList :=
  if l.isTaken name then l
  else
    let declaration := Hop.of c.declaredIn c.declaredName
    { l with
      classes := l.classes.insert name c
      names :=
        if (l.names.lookup declaration).isSome then l.names else l.names ++ [(declaration, name)] }

def fail (l : ExportList) (name : String) (e : ResolveError) : ExportList :=
  { l with failed := l.failed ++ [(name, e)] }

def exportedName? (l : ExportList) (declaredIn : Path) (declaredName : String) : Option String :=
  l.names.lookup (Hop.of declaredIn declaredName)

end ExportList

structure Enumeration (σ : Type) where
  work : Work σ
  visited : List (List Path.Component)
  found : ExportList

namespace Enumeration

variable {σ : Type}

def addClasses (path : Path) (names : List String) (found : ExportList) : ExportList :=
  names.foldl (fun found name =>
    found.insert name { via := path, declaredName := name, declaredIn := path }) found

-- Resolves a named re-export from its own file, unless its name is taken.
def addReexport (p : Provider σ) (path : Path) (s : Enumeration σ) (name : String) :
    Option (Enumeration σ) :=
  if s.found.isTaken name then some s
  else do
    match ← resolve p .classes (Reference.of name path) s.work with
    | (.ok symbol, work) =>
      let c : ExportedClass := { via := path, declaredName := symbol.name, declaredIn := symbol.file }
      return { s with work, found := s.found.insert name c }
    | (.error e, work) =>
      if e.isSymbolNotFound then return { s with work }
      else
        let work := work.say .warn .exports
          s!"[exports] re-export '{name}' in {path.text} failed: {e.message}"
        return { s with work, found := s.found.fail name e }

def addOwn (p : Provider σ) (path : Path) (index : Index) (s : Enumeration σ) : Option (Enumeration σ) :=
  index.reexports.keys.foldlM (addReexport p path)
    { s with
      visited := path.components :: s.visited
      found := addClasses path index.exportedClasses.keys s.found }

def passPackage (path : Path) (package : String) (s : Enumeration σ) : Enumeration σ :=
  { s with work := s.work.report .packageTarget path s!"wildcard re-export of package '{package}' is not followed" }

mutual

def addFile (p : Provider σ) (path : Path) (index : Index) (s : Enumeration σ) : Option (Enumeration σ) :=
  if path.components ∈ s.visited then some s
  else do (← addOwn p path index s) |>.addTargets p path index.wildcards
partial_fixpoint

def addTargets (p : Provider σ) (path : Path) (targets : List Target) (s : Enumeration σ) :
    Option (Enumeration σ) :=
  match targets with
  | [] => some s
  | .file target :: rest => do (← s |>.visit p target) |>.addTargets p path rest
  | .package package :: rest => passPackage path package s |>.addTargets p path rest
partial_fixpoint

def visit (p : Provider σ) (path : Path) (s : Enumeration σ) : Option (Enumeration σ) :=
  match s.work.openFile p path with
  | (.error e, work) =>
    some { s with work := work.report .suppressedWildcardTarget path s!"wildcard target skipped: {e.message}" }
  | (.ok (file, index), work) => { s with work } |>.addFile p file.path index
partial_fixpoint

end

end Enumeration

-- Every class that can be imported from the entry; only an unreadable entry is an error.
def exportedClasses {σ : Type} (p : Provider σ) (entry : Path) (w : Work σ) :
    Option (Except ResolveError ExportList × Work σ) :=
  match w.openFile p entry with
  | (.error e, work) => some (.error e, work)
  | (.ok (file, index), work) => do
    let s ← Enumeration.addFile p file.path index { work, visited := [], found := .empty }
    return (.ok s.found, s.work)

end ComponentAtlas
