import ComponentAtlas.Outline.Declaration
import ComponentAtlas.Path

namespace ComponentAtlas.Outline
open Source (Range)

inductive ExportMode where
  | none
  | named
  | default
deriving DecidableEq, Repr, Inhabited

def ExportMode.isExported : ExportMode → Bool
  | none => false
  | _ => true

-- `A as B` in an export list.
@[ext] structure ExportSpecifier where
  name : String
  otherName : Option String
  range : Range
deriving DecidableEq, Repr, Inhabited

-- The name that importers see.
def ExportSpecifier.exportedName (s : ExportSpecifier) : String :=
  s.otherName.getD s.name

structure ImportSpecifier where
  name : String
  otherName : Option String
deriving DecidableEq, Repr, Inhabited

def ImportSpecifier.localName (s : ImportSpecifier) : String :=
  s.otherName.getD s.name

structure Import where
  source : String
  default : Option String
  wholeModule : Option String
  specifiers : List ImportSpecifier
  typeOnly : Bool
deriving DecidableEq, Repr, Inhabited

inductive StatementForm where
  | declaration (mode : ExportMode) (decl : Declaration)
  | anonymousDefaultClass
  | exportNamed (specifiers : List ExportSpecifier) (source : Option String)
  | exportAll (source : String)
  | exportNamespace (otherName : String) (source : String)
  | importFrom (binding : Import)
  -- Any other statement, by the label of its node.
  | other (kind : String)
deriving DecidableEq, Repr, Inhabited

@[ext] structure Statement where
  form : StatementForm
  range : Range
deriving DecidableEq, Repr, Inhabited

-- A parsed file; the path is the one it was read from.
structure SourceFile where
  path : Path
  statements : List Statement
deriving DecidableEq, Repr, Inhabited

end ComponentAtlas.Outline
