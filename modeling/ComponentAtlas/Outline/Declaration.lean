import ComponentAtlas.Source.Node

namespace ComponentAtlas.Outline
open Source (Range)

-- A type kept as its source text and the label of its node.
@[ext] structure TypeText where
  text : String
  kind : String
  range : Range
deriving DecidableEq, Repr, Inhabited

-- One entry of a type parameter list: `T extends C = D`.
@[ext] structure TypeParameter where
  name : String
  constraint : Option TypeText
  default : Option TypeText
deriving DecidableEq, Repr, Inhabited

inductive HeritageForm where
  | identifier (name : String)
  | unsupported (kind : String)
deriving DecidableEq, Repr, Inhabited

-- One entry of an `extends` or `implements` clause; the text leaves out type arguments.
@[ext] structure Heritage where
  form : HeritageForm
  text : String
  arguments : List TypeText
  range : Range
deriving DecidableEq, Repr, Inhabited

@[ext] structure ClassDeclaration where
  name : String
  isAbstract : Bool
  parameters : List TypeParameter
  superclass : Option Heritage
  interfaces : List Heritage
  doc : Option String
  range : Range
deriving DecidableEq, Repr, Inhabited

@[ext] structure InterfaceDeclaration where
  name : String
  parameters : List TypeParameter
  parents : List Heritage
  doc : Option String
  range : Range
deriving DecidableEq, Repr, Inhabited

@[ext] structure AliasDeclaration where
  name : String
  parameters : List TypeParameter
  value : TypeText
  doc : Option String
  range : Range
deriving DecidableEq, Repr, Inhabited

@[ext] structure EnumMember where
  name : String
  value : Option String
deriving DecidableEq, Repr, Inhabited

@[ext] structure EnumDeclaration where
  name : String
  isConst : Bool
  members : List EnumMember
  doc : Option String
  range : Range
deriving DecidableEq, Repr, Inhabited

inductive Declaration where
  | classDecl (decl : ClassDeclaration)
  | interfaceDecl (decl : InterfaceDeclaration)
  | aliasDecl (decl : AliasDeclaration)
  | enumDecl (decl : EnumDeclaration)
deriving DecidableEq, Repr, Inhabited

namespace Declaration

def name : Declaration → String
  | classDecl d => d.name
  | interfaceDecl d => d.name
  | aliasDecl d => d.name
  | enumDecl d => d.name

def range : Declaration → Range
  | classDecl d => d.range
  | interfaceDecl d => d.range
  | aliasDecl d => d.range
  | enumDecl d => d.range

def parameters : Declaration → List TypeParameter
  | classDecl d => d.parameters
  | interfaceDecl d => d.parameters
  | aliasDecl d => d.parameters
  | enumDecl _ => []

def doc : Declaration → Option String
  | classDecl d => d.doc
  | interfaceDecl d => d.doc
  | aliasDecl d => d.doc
  | enumDecl d => d.doc

end Declaration
end ComponentAtlas.Outline
