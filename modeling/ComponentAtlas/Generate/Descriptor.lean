import ComponentAtlas.Json.Value
import ComponentAtlas.Resolve.Exports
import ComponentAtlas.Resolve.Lineage

namespace ComponentAtlas

structure GenericDescriptor where
  id : String
  range : Option String
  default : Option String
deriving DecidableEq, Repr

structure Descriptor where
  id : String
  -- The name the class is imported under.
  element : String
  isAbstract : Bool
  parents : List String
  comment : Option String
  generics : List GenericDescriptor
deriving DecidableEq, Repr

namespace Descriptor

def componentId (base name : String) : String := s!"{base}:{name}"

-- A parent that the package does not export keeps its declared name.
def parentId (base : String) (exports : ExportList) (parent : Symbol) : String :=
  componentId base ((exports.exportedName? parent.file parent.name).getD parent.name)

def genericsOf (id : String) (symbol : Symbol) : List GenericDescriptor :=
  symbol.generics.entries.map fun (name, g) =>
    { id := s!"{id}__generic_{name}"
      range := g.constraint.map (·.text)
      default := g.default.map (·.text) }

def ofLineage? (base exportedName : String) (lineage : Lineage) (exports : ExportList) : Option Descriptor :=
  match lineage.symbol.declaration with
  | .classDecl decl =>
    let id := componentId base exportedName
    some
      { id
        element := exportedName
        isAbstract := decl.isAbstract
        parents := (lineage.superclass.toList ++ lineage.interfaces).map (parentId base exports ·.symbol)
        comment := lineage.symbol.comment
        generics := genericsOf id lineage.symbol }
  | _ => none

open JsonValue

def genericJson (g : GenericDescriptor) : JsonValue :=
  .obj ([("@id", .str g.id)] ++ optional "range" (g.range.map .str) ++ optional "default" (g.default.map .str))

def toJson (d : Descriptor) : JsonValue :=
  .obj
    ([ ("@id", .str d.id),
       ("requireElement", .str d.element),
       ("@type", .str (if d.isAbstract then "AbstractClass" else "Class")) ] ++
      nonEmpty "extends" (d.parents.map .str) ++
      optional "comment" (d.comment.map .str) ++
      nonEmpty "genericTypeParameters" (d.generics.map genericJson))

end Descriptor
end ComponentAtlas
