import ComponentAtlas.Ordered
import ComponentAtlas.Outline.Statement

namespace ComponentAtlas
open Outline

structure Reference where
  name : String
  file : Path
  package : Option String
  qualified : Option (List String)
  -- The file the search for the name started from.
  referrer : Option Path
deriving DecidableEq, Repr, Inhabited

def Reference.of (name : String) (file : Path) : Reference :=
  { name, file, package := none, qualified := none, referrer := none }

inductive SymbolKind where
  | classSymbol
  | interfaceSymbol
  | aliasSymbol
  | enumSymbol
deriving DecidableEq, Repr, Inhabited

def SymbolKind.label : SymbolKind → String
  | classSymbol => "class"
  | interfaceSymbol => "interface"
  | aliasSymbol => "typeAlias"
  | enumSymbol => "enum"

structure Symbol where
  reference : Reference
  declaration : Declaration
deriving DecidableEq, Repr, Inhabited

structure Generic where
  constraint : Option TypeText
  default : Option TypeText
deriving DecidableEq, Repr, Inhabited

namespace Symbol

def kind (s : Symbol) : SymbolKind :=
  match s.declaration with
  | .classDecl _ => .classSymbol
  | .interfaceDecl _ => .interfaceSymbol
  | .aliasDecl _ => .aliasSymbol
  | .enumDecl _ => .enumSymbol

def name (s : Symbol) : String := s.reference.name

def file (s : Symbol) : Path := s.reference.file

def comment (s : Symbol) : Option String := s.declaration.doc

def generics (s : Symbol) : Ordered Generic :=
  Ordered.ofList (s.declaration.parameters.map fun p =>
    (p.name, { constraint := p.constraint, default := p.default }))

end Symbol
end ComponentAtlas
