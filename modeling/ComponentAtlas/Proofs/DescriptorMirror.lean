import ComponentAtlas.Proofs.Identifiers
import ComponentAtlas.Proofs.JsonText
import ComponentAtlas.Proofs.LinkSteps
import ComponentAtlas.Proofs.OrderedMaps
import ComponentAtlas.Proofs.OutputFiles

namespace ComponentAtlas
open Outline

namespace ExportList

def firstName? (l : ExportList) (hop : Hop) : Option String :=
  (l.classes.entries.find? fun entry => entry.2.hop = hop).map (·.1)

-- The table of names has the first name of every declaration that is listed, and no other.
def NamesFirst (l : ExportList) : Prop := ∀ hop, l.names.lookup hop = l.firstName? hop

theorem namesFirst_kept : Kept NamesFirst where
  insert {l} holds name c := by
    intro hop
    cases free : l.isTaken name with
    | true =>
      rw [insert_taken free]
      exact holds hop
    | false =>
      have absent : name ∉ l.classes.keys := by
        intro member
        obtain ⟨other, listed⟩ := Option.isSome_iff_exists.mp (Ordered.get?_isSome_iff.mpr member)
        simp [isTaken_of_get? listed] at free
      have entries : (l.insert name c).classes.entries = l.classes.entries ++ [(name, c)] := by
        rw [ExportList.insert, if_neg (ne_true_of_eq_false free)]
        exact Ordered.insert_entries absent c
      rw [lookup_insert free, holds hop, firstName?, firstName?, entries, List.find?_append, Option.map_or]
      by_cases same : hop = c.hop
      · simp [same]
      · simp [same, Ne.symm same]
  fail holds _ _ := holds

end ExportList

namespace Generate

variable {plan : Plan}

def Plan.reference (plan : Plan) (name : String) : Reference :=
  { Reference.of name plan.entry with package := some plan.package.name }

def Plan.idOf (plan : Plan) (symbol : Symbol) : String :=
  Descriptor.componentId plan.package.name ((plan.exports.firstName? symbol.hop).getD symbol.name)

-- The identifier is that of the declaration that a heritage entry resolves to from the file of the child, whenever it
-- is asked for over the same files.
def Plan.Names (plan : Plan) (child : Symbol) (l : Library) (edge : Link.Edge) (id : String) : Prop :=
  ∀ w : Work Library, w.state.Interchangeable l →
    ∃ parent w', Link.resolveHeritage Library.provider child.reference edge w = some (.ok parent, w') ∧
      id = plan.idOf parent

-- A type parameter stands where its name comes up first, with the bound and the default that it has where it is
-- declared last.
def mirrorParameters (id : String) (d : ClassDeclaration) : List GenericDescriptor :=
  (d.parameters.map (·.name)).eraseDups.map fun name =>
    let last := d.parameters.reverse.find? (·.name = name)
    { id := Descriptor.parameterId id name
      range := last.bind fun parameter => parameter.constraint.map (·.text)
      default := last.bind fun parameter => parameter.default.map (·.text) }

def Plan.mirror (plan : Plan) (name : String) (d : ClassDeclaration) (parents : List String) : Descriptor :=
  { id := Descriptor.componentId plan.package.name name
    element := name
    isAbstract := d.isAbstract
    parents
    comment := d.doc
    generics := mirrorParameters (Descriptor.componentId plan.package.name name) d }

theorem parentId_eq (first : plan.exports.NamesFirst) (parent : Symbol) :
    Descriptor.parentId plan.package.name plan.exports parent = plan.idOf parent := by
  rw [Descriptor.parentId, ExportList.exportedName?, first]
  rfl

theorem genericsOf_eq {symbol : Symbol} (declared : symbol.declaration = .classDecl d) (id : String) :
    Descriptor.genericsOf id symbol = mirrorParameters id d := by
  rw [Descriptor.genericsOf, Symbol.generics, declared]
  refine (Ordered.map_entries_ofList ?_).trans (congrArg _ (congrArg _ (List.map_map ..)))
  intro name g found
  rw [← List.map_reverse, Ordered.lookup_pairs] at found
  obtain ⟨last, there, rfl⟩ := Option.map_eq_some_iff.mp found
  dsimp only [Declaration.parameters] at there
  rw [there]
  rfl

-- A descriptor is the mirror of the declaration, with the identifiers of the parents that were linked.
theorem ofLineage?_eq (first : plan.exports.NamesFirst) (declared : lineage.symbol.declaration = .classDecl d) :
    Descriptor.ofLineage? plan.package.name name lineage plan.exports =
      some (plan.mirror name d (lineage.parents.map fun parent => plan.idOf parent.symbol)) := by
  have parents : (lineage.superclass.toList ++ lineage.interfaces).map
      (Descriptor.parentId plan.package.name plan.exports ·.symbol) =
      lineage.parents.map fun parent => plan.idOf parent.symbol :=
    List.map_congr_left fun parent _ => parentId_eq first parent.symbol
  have comment : lineage.symbol.comment = d.doc := by rw [Symbol.comment, declared]; rfl
  rw [Descriptor.ofLineage?, declared]
  dsimp only
  rw [parents, comment, genericsOf_eq declared, Plan.mirror]

-- A parent that was found in the course of a run is found again at any time, up to the spelling of its file.
theorem names_of_found (first : plan.exports.NamesFirst)
    (found : Link.Found Library.provider (·.Interchangeable l) child edge parent) :
    plan.Names child l edge (plan.idOf parent.symbol) := by
  intro w alike
  obtain ⟨moment, after, known, resolved⟩ := found.resolved
  -- Reports differ from moment to moment, so the two runs are compared without any.
  obtain ⟨_, resolved⟩ := Link.resolveHeritage_abreast (v := .start moment.state) resolved rfl
  have works : Work.Like moment.state.tree.Twin (fun one two => one.tree = moment.state.tree ∧ one.Interchangeable two)
      (.start moment.state) (.start w.state) := ⟨⟨rfl, known.trans alike.symm⟩, .nil⟩
  obtain ⟨-, resolves⟩ := (Library.lockstep moment.state.tree).resolveHeritage resolved trivial
  obtain ⟨⟨result, _⟩, resolved', results, -⟩ := resolves child.reference _ ⟨rfl, .inl rfl, rfl⟩ works
  cases results with
  | @ok _ parent' symbols =>
    obtain ⟨w', resolved'⟩ := Link.resolveHeritage_abreast (v := w) resolved' rfl
    refine ⟨parent', w', resolved', ?_⟩
    rw [← parentId_eq first, ← parentId_eq first]
    exact Descriptor.parentId_like (fun _ _ => FileTree.Twin.same) rfl _ symbols

theorem describes_mirror (first : plan.exports.NamesFirst) (describes : Describes plan name w lineage descriptor) :
    ∃ symbol d ids w', resolve Library.provider .classes (plan.reference name) w = some (.ok symbol, w') ∧
      symbol.declaration = .classDecl d ∧ descriptor = plan.mirror name d ids ∧
      List.Forall₂ (plan.Names symbol w.state) (Link.edges symbol.declaration) ids := by
  obtain ⟨⟨_, linked⟩, described⟩ := describes
  obtain ⟨⟨result, between⟩, resolved, linked⟩ := Option.bind_eq_some_iff.mp linked
  cases result with
  | error e => cases linked
  | ok symbol =>
    have kept : ∀ (l : Library) path, l.Interchangeable w.state → (Library.load path l).state.Interchangeable w.state :=
      fun l path alike => (l.load_interchangeable path).trans alike
    have known := resolve_kept (p := Library.provider) kept (.refl _) resolved
    obtain ⟨rfl, built⟩ := Link.link_built (p := Library.provider) kept known linked
    obtain ⟨d, declared⟩ := (resolve_declared resolved).class
    rw [ofLineage?_eq first declared] at described
    cases described
    refine ⟨_, d, _, between, resolved, declared, rfl, ?_⟩
    obtain ⟨-, found, -⟩ := built.above
    exact List.forall₂_map_right_iff.mpr (found.imp fun edge parent one => names_of_found first one)

end Generate

open Generate

-- A class that resolves and links always has a descriptor. When it is written, the text of the file is that of one value
-- only. It holds one identifier for every heritage entry of the declaration that the class resolves to, in order, one
-- entry for every name of a type parameter, and whether the class is abstract.
theorem generateClass_mirrors {plan : Plan} {before after w : Work Library}
    (listed : exportedClasses Library.provider plan.entry before = some (.ok plan.exports, after)) (name : String) :
    (∀ symbol between lineage linked,
      resolve Library.provider .classes (plan.reference name) w = some (.ok symbol, between) →
      loadLineage Library.provider symbol between = some (.ok lineage, linked) →
      ∃ descriptor, Descriptor.ofLineage? plan.package.name name lineage plan.exports = some descriptor) ∧
    ∀ path w', generateClass plan name w = some (.ok path, w') → ∃ symbol d ids text fields between,
      resolve Library.provider .classes (plan.reference name) w = some (.ok symbol, between) ∧
      symbol.declaration = .classDecl d ∧
      w'.state.tree.readText path = .ok text ∧ (∀ v : JsonValue, v.pretty = text ↔ v = .obj fields) ∧
      List.Forall₂ (plan.Names symbol w.state) (Link.edges (.classDecl d)) ids ∧
      fields.lookup "extends" = JsonValue.listed (ids.map .str) ∧
      (∃ parameters, fields.lookup "genericTypeParameters" = JsonValue.listed parameters ∧
        List.Forall₂ Descriptor.HoldsGeneric (mirrorParameters (Descriptor.componentId plan.package.name name) d)
          parameters) ∧
      fields.lookup "@type" = some (.str (if d.isAbstract then "AbstractClass" else "Class")) := by
  have first : plan.exports.NamesFirst := exportedClasses_kept ExportList.namesFirst_kept (fun _ => rfl) listed
  refine ⟨?_, ?_⟩
  · intro symbol between lineage linked resolved loaded
    obtain ⟨rfl, -⟩ : lineage.symbol = symbol ∧ Link.Built Library.provider (fun _ => True) [] lineage :=
      Link.link_built (fun _ _ _ => trivial) trivial loaded
    obtain ⟨d, declared⟩ := (resolve_declared resolved).class
    exact ⟨_, ofLineage?_eq first declared⟩
  · intro path w' attempted
    obtain ⟨e, failed, -⟩ | ⟨lineage, descriptor, describes, equal, wrote⟩ := generateClass_cases attempted
    · cases failed
    · cases equal
      obtain ⟨symbol, d, ids, between, resolved, declared, rfl, names⟩ := describes_mirror first describes
      obtain ⟨fields, object, holds⟩ := (plan.mirror name d ids).toJson_holds
      obtain ⟨place, puts⟩ := FileTree.write_puts wrote
      rw [declared] at names
      have read := FileTree.readText_of_entry puts.located puts.here
      rw [object] at read
      have only (v : JsonValue) : v.pretty = (JsonValue.obj fields).pretty ↔ v = .obj fields :=
        ⟨JsonValue.pretty_injective, congrArg _⟩
      have generics := List.forall₂_map_right_iff.mpr
        (List.forall₂_same.mpr fun g (_ : g ∈ (plan.mirror name d ids).generics) => Descriptor.genericJson_holds g)
      exact ⟨symbol, d, ids, _, fields, between, resolved, declared, read, only, names, holds.parents,
        ⟨_, holds.generics, generics⟩, holds.type⟩

-- A class that takes its parents from the same module, one of them exported under another name only, and that declares
-- one of its type parameters twice.
def vase : ClassDeclaration :=
  { name := "Vase"
    isAbstract := true
    parameters :=
      [ { name := "T", constraint := some { (default : TypeText) with text := "Glaze" }, default := none },
        { name := "U", constraint := some { (default : TypeText) with text := "Form" }, default := none },
        { name := "T", constraint := none, default := some { (default : TypeText) with text := "Matte" } } ]
    superclass := some { (default : Heritage) with form := .identifier "Clay" }
    interfaces := [{ (default : Heritage) with form := .identifier "Shaped" }]
    doc := none
    range := default }

def potteryModule : SourceFile :=
  .ofForms "index.ts"
    [ .declaration .none (.classDecl { (default : ClassDeclaration) with name := "Clay" }),
      .declaration .none (.interfaceDecl { (default : InterfaceDeclaration) with name := "Shaped" }),
      .declaration .named (.classDecl vase),
      .exportNamed [{ name := "Clay", otherName := some "Base", range := default }] (some "./index.ts") ]

def pottery : Work Library :=
  .start
    { tree :=
        { workingDirectory := ["pottery"]
          entries := [(["pottery"], .directory), (["pottery", "index.ts"], .file (.text ""))] }
      known := [(potteryModule.path.components, potteryModule)] }

def potteryExports : ExportList :=
  (ExportList.empty.insert "Vase" { via := ⟨"index.ts"⟩, declaredName := "Vase", declaredIn := ⟨"index.ts"⟩ }).insert
    "Base" { via := ⟨"index.ts"⟩, declaredName := "Clay", declaredIn := ⟨"index.ts"⟩ }

def potteryPlan : Plan :=
  { package := { root := ⟨"."⟩, name := "pottery", version := none, types := ⟨"index.d.ts"⟩ }
    entry := ⟨"index.ts"⟩
    exports := potteryExports
    outputDir := ⟨"."⟩
    extension := ".jsonld" }

theorem pottery_exports : ∃ after,
    exportedClasses Library.provider potteryPlan.entry pottery = some (.ok potteryPlan.exports, after) := by
  have seen : (exportedClassesWithin 20 Library.provider ⟨"index.ts"⟩ pottery).map (·.1.toOption.map fun l =>
      decide (l.classes.entries = potteryExports.classes.entries ∧ l.failed.length = 0 ∧ l.names = potteryExports.names)) =
      some (some true) := by decide +kernel
  obtain ⟨⟨result, after⟩, ended, shown⟩ := Option.map_eq_some_iff.mp seen
  cases result with
  | error e => cases shown
  | ok l =>
    obtain ⟨⟨entries⟩, failed, names⟩ := l
    obtain ⟨rfl, none, rfl⟩ := of_decide_eq_true (Option.some.inj shown)
    obtain rfl := List.length_eq_zero_iff.mp none
    exact ⟨after, exportedClassesWithin_completes _ _ _ _ _ ended⟩

-- The identifier that a heritage entry of the class is seen to have.
theorem pottery_names {text : String} (expected : String) (names : potteryPlan.Names child pottery.state edge text)
    (seen : (Work.resolveHeritageWithin 20 Library.provider child.reference edge pottery).map
      (·.1.toOption.map potteryPlan.idOf) = some (some expected)) : text = expected := by
  obtain ⟨parent, w', resolved, rfl⟩ := names pottery (.refl _)
  obtain ⟨r, ended, shown⟩ := Option.map_eq_some_iff.mp seen
  have same := (Work.resolveHeritageWithin_completes _ _ _ _ r ended).symm.trans resolved
  cases same
  exact Option.some.inj shown

def vaseText : String :=
  "\n".intercalate
    [ "\x7b",
      "  \"@id\": \"pottery:Vase\",",
      "  \"requireElement\": \"Vase\",",
      "  \"@type\": \"AbstractClass\",",
      "  \"extends\": [",
      "    \"pottery:Base\",",
      "    \"pottery:Shaped\"",
      "  ],",
      "  \"genericTypeParameters\": [",
      "    \x7b",
      "      \"@id\": \"pottery:Vase__generic_T\",",
      "      \"default\": \"Matte\"",
      "    \x7d,",
      "    \x7b",
      "      \"@id\": \"pottery:Vase__generic_U\",",
      "      \"range\": \"Form\"",
      "    \x7d",
      "  ]",
      "\x7d" ]

theorem generateClass_mirrors_vase : ∃ path w' fields,
    generateClass potteryPlan "Vase" pottery = some (.ok path, w') ∧
    w'.state.tree.readText path = .ok vaseText ∧ (∀ v : JsonValue, v.pretty = vaseText ↔ v = .obj fields) ∧
    fields.lookup "extends" = some (.arr [.str "pottery:Base", .str "pottery:Shaped"]) ∧
    fields.lookup "@type" = some (.str "AbstractClass") ∧
    ∃ first second, fields.lookup "genericTypeParameters" = some (.arr [.obj first, .obj second]) ∧
      first.lookup "@id" = some (.str "pottery:Vase__generic_T") ∧ first.lookup "range" = none ∧
      first.lookup "default" = some (.str "Matte") ∧
      second.lookup "@id" = some (.str "pottery:Vase__generic_U") ∧ second.lookup "range" = some (.str "Form") ∧
      second.lookup "default" = none := by
  obtain ⟨after, listed⟩ := pottery_exports
  have written : (generateClassBy (.within 20 Library.provider) potteryPlan "Vase" pottery).map (fun r =>
      r.1.toOption.bind fun path => (r.2.state.tree.readText path).toOption) = some (some vaseText) := by decide +kernel
  have found : (resolveWithin 20 Library.provider .classes (potteryPlan.reference "Vase") pottery).map (·.1.toOption) =
      some (some
        { reference := { potteryPlan.reference "Vase" with referrer := some ⟨"index.ts"⟩ }
          declaration := .classDecl vase }) := by decide +kernel
  obtain ⟨⟨result, w'⟩, ended, success⟩ := Option.map_eq_some_iff.mp written
  cases result with
  | error e => cases success
  | ok path =>
    dsimp only [Except.toOption, Option.bind_some] at success
    have attempted : generateClass potteryPlan "Vase" pottery = some (.ok path, w') := by
      rw [generateClass_eq]
      exact generateClassBy_completes (Means.within_completes 20 _) _ _ _ _ ended
    obtain ⟨-, mirrors⟩ := generateClass_mirrors (w := pottery) listed "Vase"
    obtain ⟨symbol, d, ids, text, fields, between, resolved, declared, read, only, names, parents,
      ⟨parameters, generics, held⟩, type⟩ := mirrors path w' attempted
    obtain ⟨r, ended, there⟩ := Option.map_eq_some_iff.mp found
    have same := (resolveWithin_completes _ _ _ _ _ r ended).symm.trans resolved
    cases same
    cases there
    cases declared
    rw [read] at success
    obtain rfl : text = vaseText := Option.some.inj success
    refine ⟨path, w', fields, attempted, read, only, ?_, type, ?_⟩
    · have entries : Link.edges (.classDecl vase) =
          [ { heritage := { (default : Heritage) with form := .identifier "Clay" }, interfaces := false },
            { heritage := { (default : Heritage) with form := .identifier "Shaped" }, interfaces := true } ] := rfl
      rw [entries] at names
      cases names with
      | cons one rest =>
        cases rest with
        | cons two rest =>
          cases rest
          obtain rfl := pottery_names "pottery:Base" one (by decide +kernel)
          obtain rfl := pottery_names "pottery:Shaped" two (by decide +kernel)
          exact parents
    · have mirrored : mirrorParameters (Descriptor.componentId potteryPlan.package.name "Vase") vase =
          [ { id := "pottery:Vase__generic_T", range := none, default := some "Matte" },
            { id := "pottery:Vase__generic_U", range := some "Form", default := none } ] := by decide +kernel
      rw [mirrored] at held
      cases held with
      | cons one rest =>
        cases rest with
        | cons two rest =>
          cases rest
          obtain ⟨first, rfl, id, range, default⟩ := one
          obtain ⟨second, rfl, id', range', default'⟩ := two
          exact ⟨first, second, generics, id, range, default, id', range', default'⟩

end ComponentAtlas
