import ComponentAtlas.Failure
import ComponentAtlas.Ordered
import ComponentAtlas.Outline.Statement

namespace ComponentAtlas
open Outline

inductive Target where
  -- A relative or absolute specifier, resolved against the directory of the file it stands in.
  | file (path : Path)
  -- A package, which is recorded and never followed.
  | package (name : String)
deriving DecidableEq, Repr, Inhabited

namespace Target

def isFileSpecifier (specifier : String) : Bool :=
  specifier = "." || specifier = ".." || specifier.startsWith "./" || specifier.startsWith "../" ||
    specifier.startsWith "/"

def ofSpecifier (specifier : String) (referrer : Path) : Target :=
  if isFileSpecifier specifier then file (referrer.parentD.joinText specifier).normalize
  else package specifier

end Target

-- What a name bound by an import or a re-export stands for: a name in another module.
structure Binding where
  name : String
  target : Target
deriving DecidableEq, Repr, Inhabited

structure Index where
  exportedClasses : Ordered ClassDeclaration
  exportedInterfaces : Ordered InterfaceDeclaration
  exportedAliases : Ordered AliasDeclaration
  exportedEnums : Ordered EnumDeclaration
  declaredClasses : Ordered ClassDeclaration
  declaredInterfaces : Ordered InterfaceDeclaration
  declaredAliases : Ordered AliasDeclaration
  declaredEnums : Ordered EnumDeclaration
  imports : Ordered Binding
  reexports : Ordered Binding
  -- Targets of `export *`, in order and with repetitions.
  wildcards : List Target
  -- Exports of a local name, by exported name; they are not followed.
  localExports : Ordered String
  -- Modules exported as a whole under a name; they are not followed.
  namespaces : Ordered Target

namespace Index

def empty : Index :=
  { exportedClasses := .empty
    exportedInterfaces := .empty
    exportedAliases := .empty
    exportedEnums := .empty
    declaredClasses := .empty
    declaredInterfaces := .empty
    declaredAliases := .empty
    declaredEnums := .empty
    imports := .empty
    reexports := .empty
    wildcards := []
    localExports := .empty
    namespaces := .empty }

def add (path : Path) (index : Index) (s : Statement) : Index :=
  match s.form with
  | .declaration mode decl =>
    match decl, mode.isExported with
    | .classDecl d, true => { index with exportedClasses := index.exportedClasses.insert d.name d }
    | .interfaceDecl d, true => { index with exportedInterfaces := index.exportedInterfaces.insert d.name d }
    | .aliasDecl d, true => { index with exportedAliases := index.exportedAliases.insert d.name d }
    | .enumDecl d, true => { index with exportedEnums := index.exportedEnums.insert d.name d }
    | .classDecl d, false => { index with declaredClasses := index.declaredClasses.insert d.name d }
    | .interfaceDecl d, false => { index with declaredInterfaces := index.declaredInterfaces.insert d.name d }
    | .aliasDecl d, false => { index with declaredAliases := index.declaredAliases.insert d.name d }
    | .enumDecl d, false => { index with declaredEnums := index.declaredEnums.insert d.name d }
  | .exportNamed specs (some source) =>
    let target := Target.ofSpecifier source path
    { index with reexports := index.reexports.insertAll (specs.map fun spec => (spec.exportedName, ⟨spec.name, target⟩)) }
  | .exportNamed specs none =>
    { index with localExports := index.localExports.insertAll (specs.map fun spec => (spec.exportedName, spec.name)) }
  | .exportAll source => { index with wildcards := index.wildcards ++ [.ofSpecifier source path] }
  | .exportNamespace otherName source =>
    { index with namespaces := index.namespaces.insert otherName (.ofSpecifier source path) }
  | .importFrom binding =>
    let target := Target.ofSpecifier binding.source path
    { index with
      imports := index.imports.insertAll (binding.specifiers.map fun spec => (spec.localName, ⟨spec.name, target⟩)) }
  | .anonymousDefaultClass | .other _ => index

def ofStatements (file : SourceFile) : Index :=
  file.statements.foldl (add file.path) empty

def isAnonymous (s : Statement) : Bool :=
  match s.form with
  | .anonymousDefaultClass => true
  | _ => false

-- A file that exports a class without a name has no index.
def ofFile (file : SourceFile) : Except ResolveError Index :=
  match file.statements.find? isAnonymous with
  | some s =>
    .error (.malformedExport file.path s.range.line s.range.column "exported class has no name")
  | none => .ok (ofStatements file)

end Index
end ComponentAtlas
