import ComponentAtlas.Resolve.Provider

namespace ComponentAtlas
open Outline

structure KindFilter where
  interfaces : Bool
  types : Bool
deriving DecidableEq, Repr

namespace KindFilter

def classes : KindFilter := { interfaces := false, types := false }

def classesAndInterfaces : KindFilter := { interfaces := true, types := false }

def any : KindFilter := { interfaces := true, types := true }

def ofInterfaces (interfaces : Bool) : KindFilter := { interfaces, types := false }

end KindFilter

-- The declaration of a name in a file itself: classes first, exported before declared.
def Index.local? (index : Index) (kinds : KindFilter) (name : String) : Option Declaration :=
  let inOrder {α : Type} (first second : Ordered α) : Option α := (first.get? name).or (second.get? name)
  match inOrder index.exportedClasses index.declaredClasses with
  | some d => some (.classDecl d)
  | none =>
    match if kinds.interfaces then inOrder index.exportedInterfaces index.declaredInterfaces else none with
    | some d => some (.interfaceDecl d)
    | none =>
      if kinds.types then
        match inOrder index.exportedAliases index.declaredAliases with
        | some d => some (.aliasDecl d)
        | none => (inOrder index.exportedEnums index.declaredEnums).map .enumDecl
      else none

-- A place of the search: a name in a file, the file compared by its components.
structure Hop where
  file : List Path.Component
  name : String
deriving DecidableEq, Repr

def Hop.of (path : Path) (name : String) : Hop := { file := path.components, name }

def Symbol.hop (s : Symbol) : Hop := .of s.file s.name

structure Search (σ : Type) where
  work : Work σ
  visited : List Hop

structure Request where
  kinds : KindFilter
  origin : Reference

def Request.symbol (request : Request) (name : String) (file : Path) (declaration : Declaration) : Symbol :=
  { reference :=
      { name
        file
        package := request.origin.package
        qualified := request.origin.qualified
        referrer := some request.origin.file }
    declaration }

namespace Search

variable {σ : Type}

abbrev Result (σ : Type) := Except ResolveError Symbol × Search σ

def report (s : Search σ) (kind : DiagnosticKind) (path : Path) (message : String) : Search σ :=
  { s with work := s.work.report kind path message }

def say (s : Search σ) (level : LogLevel) (message : String) : Search σ :=
  { s with work := s.work.say level .resolver message }

def passOver (name : String) (referrer : Path) (e : ResolveError) (s : Search σ) : Search σ :=
  let s :=
    if e.isSymbolNotFound then s
    else s.say .warn s!"[resolve] skipping wildcard target of {referrer.text} for '{name}': {e.message}"
  s.report .suppressedWildcardTarget referrer s!"wildcard target did not provide '{name}': {e.message}"

-- Names that the file exports in a way that is never followed leave a note.
def noteUnfollowed (index : Index) (name : String) (path : Path) (s : Search σ) : Search σ :=
  match index.localExports.get? name with
  | some localName =>
    s.report .unfollowedExport path
      s!"'{name}' is re-exported from local '{localName}' without a source module"
  | none =>
    if index.namespaces.contains name then
      s.report .unfollowedExport path s!"'{name}' is a namespace re-export, not a declaration"
    else s

-- A hop is entered once; entering it is logged.
def enter (s : Search σ) (name : String) (path : Path) : Search σ :=
  { s with visited := Hop.of path name :: s.visited }.say .debug s!"[resolve] looking up '{name}' in {path.text}"

mutual

def lookup (p : Provider σ) (request : Request) (name : String) (path : Path) (s : Search σ) :
    Option (Result σ) :=
  match s.work.openFile p path with
  | (.error e, work) => some (.error e, { s with work })
  | (.ok (file, index), work) =>
    let s := { s with work }
    if Hop.of file.path name ∈ s.visited then
      some (.error (.symbolNotFound name file.path),
        s.report .revisitedReference file.path s!"'{name}' was already visited in this resolution")
    else s.enter name file.path |>.expand p request name file index
partial_fixpoint

-- The search in one file that is entered for the first time under this name.
def expand (p : Provider σ) (request : Request) (name : String) (file : SourceFile) (index : Index)
    (s : Search σ) : Option (Result σ) :=
  match index.local? request.kinds name with
  | some declaration => some (.ok (request.symbol name file.path declaration), s)
  | none =>
    match (index.imports.get? name).or (index.reexports.get? name) with
    | some binding => s |>.follow p request binding.name binding.target file.path
    | none => do
      match ← s |>.firstOf p request name file.path index.wildcards with
      | (some symbol, s) => some (.ok symbol, s)
      | (none, s) => some (.error (.symbolNotFound name file.path), noteUnfollowed index name file.path s)
partial_fixpoint

def firstOf (p : Provider σ) (request : Request) (name : String) (referrer : Path) (targets : List Target)
    (s : Search σ) : Option (Option Symbol × Search σ) :=
  match targets with
  | [] => some (none, s)
  | target :: rest => do
    match ← s |>.follow p request name target referrer with
    | (.ok symbol, s) => some (some symbol, s)
    | (.error e, s) => passOver name referrer e s |>.firstOf p request name referrer rest
partial_fixpoint

def follow (p : Provider σ) (request : Request) (name : String) (target : Target) (referrer : Path)
    (s : Search σ) : Option (Result σ) :=
  match target with
  | .file path => s |>.lookup p request name path
  | .package package =>
    some (.error (.symbolNotFound name referrer),
      s.report .packageTarget referrer s!"'{name}' comes from package '{package}', which is not followed")
partial_fixpoint

end

end Search

def resolve {σ : Type} (p : Provider σ) (kinds : KindFilter) (reference : Reference) (w : Work σ) :
    Option (Except ResolveError Symbol × Work σ) := do
  let request : Request := { kinds, origin := reference }
  let (result, s) ← Search.lookup p request reference.name reference.file { work := w, visited := [] }
  return (result, s.work)

end ComponentAtlas
