import ComponentAtlas.Proofs.FirstMatch
import ComponentAtlas.Proofs.NamedHops
import ComponentAtlas.Resolve.Lineage

namespace ComponentAtlas
open Outline

def Link.sought (child : Symbol) (name : String) : Reference :=
  { Reference.of name child.file with package := child.reference.package }

-- Only these have heritage entries.
def Outline.Declaration.Heritable : Declaration → Prop
  | classDecl _ | interfaceDecl _ => True
  | _ => False

theorem Link.heritable_of_edge (member : edge ∈ Link.edges declaration) : declaration.Heritable := by
  cases declaration with
  | classDecl | interfaceDecl => trivial
  | aliasDecl | enumDecl => cases member

-- Whichever kinds were asked for, a class or an interface is the one that the name has when no
-- other kinds are in question.
theorem Index.local?_heritable {index : Index} (here : index.local? kinds name = some declaration)
    (heritable : declaration.Heritable) : index.local? .classesAndInterfaces name = some declaration := by
  obtain ⟨d, rfl, found⟩ | ⟨d, rfl, -, noClass, found⟩ | ⟨-, ⟨d, rfl, -⟩ | ⟨d, rfl, -⟩⟩ := local?_cases here
  · simp only [local?, found]
  · simp only [local?, noClass, KindFilter.classesAndInterfaces, found, if_true]
  · exact heritable.elim
  · exact heritable.elim

theorem Index.heritable_of_local? {index : Index} (here : index.local? kinds name = some declaration)
    (narrow : kinds.types = false) : declaration.Heritable := by
  obtain ⟨d, rfl, -⟩ | ⟨d, rfl, -⟩ | ⟨types, -⟩ := local?_cases here
  · trivial
  · trivial
  · rw [narrow] at types
    cases types

def Index.localNames (index : Index) : List String :=
  index.exportedClasses.keys ++ index.declaredClasses.keys ++ index.exportedInterfaces.keys ++
    index.declaredInterfaces.keys ++ index.exportedAliases.keys ++ index.declaredAliases.keys ++
      index.exportedEnums.keys ++ index.declaredEnums.keys

theorem Ordered.mem_keys_of_or {α : Type} {first second : Ordered α} {value : α}
    (got : (first.get? key).or (second.get? key) = some value) : key ∈ first.keys ∨ key ∈ second.keys := by
  rcases Option.or_eq_some_iff.mp got with one | ⟨-, two⟩
  · exact .inl (List.mem_map.mpr ⟨_, mem_of_get? one, rfl⟩)
  · exact .inr (List.mem_map.mpr ⟨_, mem_of_get? two, rfl⟩)

theorem Index.local?_named {index : Index} (here : index.local? kinds name = some declaration) :
    name ∈ index.localNames := by
  simp only [localNames, List.mem_append]
  obtain ⟨d, -, found⟩ | ⟨d, -, -, -, found⟩ | ⟨-, ⟨d, -, found⟩ | ⟨d, -, found⟩⟩ := local?_cases here <;>
  · have listed := Ordered.mem_keys_of_or found
    tauto

namespace View

def Names (v : View) (child : Symbol) (edge : Link.Edge) (parent : Symbol) : Prop :=
  ∃ name, edge.heritage.form = .identifier name ∧
    v.Resolves (.ofInterfaces edge.interfaces) (Link.sought child name) (.ok parent)

def Extends (v : View) (child parent : Symbol) : Prop :=
  ∃ edge ∈ Link.edges child.declaration, v.Names child edge parent

-- What is asked of a symbol apart from cycles.
structure Proper (v : View) (child : Symbol) : Prop where
  identified : ∀ edge ∈ Link.edges child.declaration, ∃ name, edge.heritage.form = .identifier name
  resolved : ∀ edge ∈ Link.edges child.declaration, ∀ name, edge.heritage.form = .identifier name →
    ∃ parent, v.Resolves (.ofInterfaces edge.interfaces) (Link.sought child name) (.ok parent)
  interfaces : child.kind = .interfaceSymbol → ∀ parent, v.Extends child parent → parent.kind = .interfaceSymbol

def Ancestor (v : View) : Symbol → Symbol → Prop := Relation.ReflTransGen v.Extends

-- A walk from child to parent: the symbols that it leaves, and the one that it ends in.
inductive Walk (v : View) : Symbol → List Symbol → Symbol → Prop where
  | here : Walk v x [] x
  | up (step : v.Extends x y) (rest : Walk v y trail z) : Walk v x (x :: trail) z

variable {v : View}

theorem Names.resolves (named : v.Names child edge parent) (form : edge.heritage.form = .identifier name) :
    v.Resolves (.ofInterfaces edge.interfaces) (Link.sought child name) (.ok parent) := by
  obtain ⟨name', form', resolves⟩ := named
  rw [form] at form'
  cases form'
  exact resolves

theorem Proper.of_named (named : ∀ edge ∈ Link.edges child.declaration, ∃ parent, v.Names child edge parent)
    (interfaces : child.kind = .interfaceSymbol → ∀ parent, v.Extends child parent → parent.kind = .interfaceSymbol) :
    v.Proper child where
  identified edge member := by
    obtain ⟨parent, name, form, -⟩ := named edge member
    exact ⟨name, form⟩
  resolved edge member name form := by
    obtain ⟨parent, names⟩ := named edge member
    exact ⟨parent, names.resolves form⟩
  interfaces := interfaces

theorem Walk.ancestor (walk : v.Walk x trail y) : v.Ancestor x y := by
  induction walk with
  | here => exact .refl
  | up step _ ih => exact .head step ih

theorem Walk.through (walk : v.Walk x trail z) (member : y ∈ trail) :
    v.Ancestor x y ∧ Relation.TransGen v.Extends y z := by
  induction walk with
  | here => cases member
  | up step rest ih =>
    rcases List.mem_cons.mp member with rfl | below
    · exact ⟨.refl, .head' step rest.ancestor⟩
    · exact ⟨.head step (ih below).1, (ih below).2⟩

def Known (v : View) (symbol : Symbol) : Prop :=
  ∃ x kinds, v.Holds x ∧ x.declaration? kinds = some symbol.declaration ∧
    x.name = symbol.name ∧ x.file.path = symbol.file

theorem Resolves.known (coherent : v.Coherent) (resolves : v.Resolves kinds reference (.ok symbol)) :
    v.Known symbol ∧ symbol.reference.package = reference.package ∧
      (kinds.types = false → symbol.declaration.Heritable) := by
  obtain ⟨x, declaration, -, holds, here, rfl⟩ := resolves.first coherent
  exact ⟨⟨x, kinds, holds, here, rfl, rfl⟩, rfl, Index.heritable_of_local? here⟩

theorem Known.same (coherent : v.Coherent) (one : v.Known x) (two : v.Known y) (equal : x.hop = y.hop)
    (heritable : x.declaration.Heritable) (heritable' : y.declaration.Heritable) :
    x.declaration = y.declaration ∧ x.file = y.file := by
  obtain ⟨one, kinds, holds, here, name, file⟩ := one
  obtain ⟨two, kinds', holds', here', name', file'⟩ := two
  have hops : one.hop = two.hop := by
    rw [Place.hop, Place.hop, name, name', file, file']
    exact equal
  obtain rfl := coherent.place_eq holds holds' hops
  have only := Index.local?_heritable here heritable
  rw [Index.local?_heritable here' heritable'] at only
  exact ⟨(Option.some.inj only).symm, file.symm.trans file'⟩

theorem Extends.heritable (step : v.Extends x y) : x.declaration.Heritable := by
  obtain ⟨edge, member, -⟩ := step
  exact Link.heritable_of_edge member

theorem Extends.known (coherent : v.Coherent) (step : v.Extends x y) :
    v.Known y ∧ y.reference.package = x.reference.package ∧ y.declaration.Heritable := by
  obtain ⟨edge, -, name, -, resolves⟩ := step
  obtain ⟨known, package, heritable⟩ := resolves.known coherent
  exact ⟨known, package, heritable rfl⟩

theorem Ancestor.known (coherent : v.Coherent) (known : v.Known symbol) (above : v.Ancestor symbol x) :
    v.Known x ∧ x.reference.package = symbol.reference.package ∧
      (x = symbol ∨ symbol.declaration.Heritable ∧ x.declaration.Heritable) := by
  induction above with
  | refl => exact ⟨known, rfl, .inl rfl⟩
  | @tail x y above step ih =>
    obtain ⟨-, package, kind⟩ := ih
    obtain ⟨known', package', heritable⟩ := step.known coherent
    refine ⟨known', package'.trans package, .inr ⟨?_, heritable⟩⟩
    rcases kind with rfl | ⟨heritable', -⟩
    · exact step.heritable
    · exact heritable'

def keys (v : View) : Set Hop := {hop | ∃ symbol, v.Known symbol ∧ symbol.hop = hop}

theorem keys_finite (coherent : v.Coherent) (finite : v.places.Finite) : v.keys.Finite := by
  have declared : (⋃ place ∈ v.places, {hop | ∃ x, v.Holds x ∧ x.file.path.components = place ∧
      x.hop = hop ∧ x.name ∈ x.index.localNames}).Finite := by
    refine finite.biUnion fun place member => ?_
    obtain ⟨path, file, index, shown, here⟩ := member
    refine (List.finite_toSet (index.localNames.map (Hop.mk place))).subset ?_
    rintro hop ⟨x, ⟨path', shown'⟩, there, rfl, named⟩
    obtain ⟨-, equal⟩ := coherent.same shown shown' (here.trans there.symm)
    exact List.mem_map.mpr ⟨x.name, equal ▸ named, by rw [← there]; rfl⟩
  refine declared.subset ?_
  rintro hop ⟨symbol, ⟨x, kinds, holds, here, name, file⟩, rfl⟩
  refine Set.mem_biUnion holds.place ⟨x, holds, rfl, ?_, Index.local?_named here⟩
  rw [Place.hop, name, file]
  rfl

end View
end ComponentAtlas
