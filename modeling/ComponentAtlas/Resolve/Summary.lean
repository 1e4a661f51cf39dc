import ComponentAtlas.Json.Value
import ComponentAtlas.Resolve.Lineage

namespace ComponentAtlas
open Outline

structure Summary where
  name : String
  kind : SymbolKind
  file : Path
  comment : Option String
  generics : Ordered Generic
  isAbstract : Option Bool
  superclass : Option Summary
  implemented : List Summary
  superInterfaces : List Summary
  members : List EnumMember

namespace Summary

def ofSymbol (s : Symbol) : Summary :=
  { name := s.name
    kind := s.kind
    file := s.file
    comment := s.comment
    generics := s.generics
    isAbstract :=
      match s.declaration with
      | .classDecl d => some d.isAbstract
      | _ => none
    superclass := none
    implemented := []
    superInterfaces := []
    members :=
      match s.declaration with
      | .enumDecl d => d.members
      | _ => [] }

end Summary

mutual

def Lineage.summary : Lineage → Summary
  | .node symbol superclass interfaces =>
    let base := Summary.ofSymbol symbol
    match symbol.declaration with
    | .classDecl _ =>
      { base with superclass := summaryOption superclass, implemented := summaryList interfaces }
    | .interfaceDecl _ => { base with superInterfaces := summaryList interfaces }
    | _ => base

def summaryOption : Option Lineage → Option Summary
  | none => none
  | some lineage => some lineage.summary

def summaryList : List Lineage → List Summary
  | [] => []
  | lineage :: rest => lineage.summary :: summaryList rest

end

namespace Summary
open JsonValue

def typeJson (t : TypeText) : JsonValue := .obj [("text", .str t.text), ("kind", .str t.kind)]

def genericJson (g : Generic) : JsonValue :=
  .obj (optional "type" (g.constraint.map typeJson) ++ optional "default" (g.default.map typeJson))

def genericsField (generics : Ordered Generic) : List (String × JsonValue) :=
  match generics.entries with
  | [] => []
  | entries => [("generics", .obj (entries.map fun (name, g) => (name, genericJson g)))]

def memberJson (m : EnumMember) : JsonValue :=
  .obj ([("name", .str m.name)] ++ optional "value" (m.value.map .str))

mutual

def toJson : Summary → JsonValue
  | ⟨name, kind, file, comment, generics, isAbstract, superclass, implemented, superInterfaces, members⟩ =>
    .obj
      ([("name", .str name), ("kind", .str kind.label), ("file", .str file.text)] ++
        optional "comment" (comment.map .str) ++
        genericsField generics ++
        optional "abstract" (isAbstract.map .bool) ++
        optional "superClass" (jsonOption superclass) ++
        nonEmpty "implements" (jsonList implemented) ++
        nonEmpty "superInterfaces" (jsonList superInterfaces) ++
        nonEmpty "members" (members.map memberJson))

def jsonOption : Option Summary → Option JsonValue
  | none => none
  | some s => some s.toJson

def jsonList : List Summary → List JsonValue
  | [] => []
  | s :: rest => s.toJson :: jsonList rest

end

end Summary

namespace Diagnostic
open JsonValue

def rangeJson (r : Source.Range) : JsonValue :=
  .obj
    [ ("start_line", .nat r.startLine), ("start_column", .nat r.startColumn),
      ("end_line", .nat r.endLine), ("end_column", .nat r.endColumn) ]

def toJson (d : Diagnostic) : JsonValue :=
  .obj
    ([("kind", .str d.kind.label), ("path", .str d.path.text)] ++
      optional "range" (d.range.map rangeJson) ++ [("message", .str d.message)])

end Diagnostic
end ComponentAtlas
