import ComponentAtlas.Resolve.Lookup

namespace ComponentAtlas
open Outline

inductive Lineage where
  -- `superclass` is used by classes; `interfaces` holds what a class implements or an interface extends.
  | node (symbol : Symbol) (superclass : Option Lineage) (interfaces : List Lineage)

namespace Lineage

def symbol : Lineage → Symbol
  | node symbol _ _ => symbol

def superclass : Lineage → Option Lineage
  | node _ superclass _ => superclass

def interfaces : Lineage → List Lineage
  | node _ _ interfaces => interfaces

def unlinked (symbol : Symbol) : Lineage := node symbol none []

-- A symbol under its linked parents, which stand in the order of its heritage entries. Only a class
-- can be the superclass of a class.
def ofParents (symbol : Symbol) (parents : List Lineage) : Lineage :=
  match symbol.declaration, parents with
  | .classDecl { superclass := some _, .. }, above :: rest =>
    node symbol (if above.symbol.kind = .classSymbol then some above else none) rest
  | _, _ => node symbol none parents

-- The chain of single parents, most derived first. An interface with several parents ends it.
def chain : Lineage → List Lineage
  | node symbol superclass interfaces =>
    node symbol superclass interfaces ::
      match symbol.declaration, superclass, interfaces with
      | .classDecl _, some parent, _ => parent.chain
      | .interfaceDecl _, _, [parent] => parent.chain
      | _, _, _ => []

end Lineage

namespace Link

variable {σ : Type}

abbrev Result (σ : Type) (α : Type) := Except ResolveError α × Work σ

-- A heritage entry, and whether it may name an interface.
structure Edge where
  heritage : Heritage
  interfaces : Bool
deriving DecidableEq, Repr

-- The heritage entries of a declaration: the superclass first, then the interfaces in order.
def edges : Declaration → List Edge
  | .classDecl d =>
    (d.superclass.toList.map fun heritage => { heritage, interfaces := false }) ++
      d.interfaces.map fun heritage => { heritage, interfaces := true }
  | .interfaceDecl d => d.parents.map fun heritage => { heritage, interfaces := true }
  | _ => []

def unsupported (child : Reference) (heritage : Heritage) (reason : String) : ResolveError :=
  .unsupportedHeritage child.name heritage.text child.file heritage.range.line heritage.range.column reason

def resolveHeritage (p : Provider σ) (child : Reference) (edge : Edge) (w : Work σ) :
    Option (Result σ Symbol) :=
  match edge.heritage.form with
  | .unsupported kind =>
    some (.error (unsupported child edge.heritage s!"only identifiers are supported, found {kind}"), w)
  | .identifier name =>
    let reference := { Reference.of name child.file with package := child.package }
    resolve p (.ofInterfaces edge.interfaces) reference w

-- An interface may only extend interfaces.
def admitted (child : Symbol) (heritage : Heritage) (parent : Symbol) : Except ResolveError Unit :=
  if child.kind = .interfaceSymbol ∧ parent.kind ≠ .interfaceSymbol then
    .error (unsupported child.reference heritage
      s!"interface cannot extend {parent.kind.label} '{parent.name}'")
  else .ok ()

def cyclic (ancestry : List Hop) (symbol : Symbol) : ResolveError :=
  .cyclicHierarchy symbol.name symbol.file (ancestry.map (·.name) ++ [symbol.name])

-- Only classes are logged.
def noteLinked (lineage : Lineage) (w : Work σ) : Work σ :=
  if lineage.symbol.kind = .classSymbol then
    let above := (lineage.superclass.map (·.symbol.name)).getD "-"
    w.say .debug .hierarchy
      s!"[hierarchy] linked class '{lineage.symbol.name}' (super: {above}, implements: {lineage.interfaces.length})"
  else w

end Link

namespace Work
open Link

variable {σ : Type}

mutual

-- `ancestry` lists the symbols on the way from the start, the start first.
def link (p : Provider σ) (ancestry : List Hop) (symbol : Symbol) (w : Work σ) :
    Option (Result σ Lineage) :=
  if symbol.hop ∈ ancestry then some (.error (cyclic ancestry symbol), w)
  else do
    match ← w |>.linkAll p (ancestry ++ [symbol.hop]) symbol (edges symbol.declaration) with
    | (.error e, w) => some (.error e, w)
    | (.ok parents, w) =>
      let lineage := Lineage.ofParents symbol parents
      some (.ok lineage, noteLinked lineage w)
partial_fixpoint

-- All entries in order; the first failure ends it.
def linkAll (p : Provider σ) (ancestry : List Hop) (child : Symbol) (edges : List Edge) (w : Work σ) :
    Option (Result σ (List Lineage)) :=
  match edges with
  | [] => some (.ok [], w)
  | edge :: rest => do
    match ← w |>.linkParent p ancestry child edge with
    | (.error e, w) => some (.error e, w)
    | (.ok parent, w) =>
      match ← w |>.linkAll p ancestry child rest with
      | (.error e, w) => some (.error e, w)
      | (.ok parents, w) => some (.ok (parent :: parents), w)
partial_fixpoint

def linkParent (p : Provider σ) (ancestry : List Hop) (child : Symbol) (edge : Edge) (w : Work σ) :
    Option (Result σ Lineage) := do
  match ← resolveHeritage p child.reference edge w with
  | (.error e, w) => some (.error e, w)
  | (.ok parent, w) =>
    match ← w |>.link p ancestry parent with
    | (.error e, w) => some (.error e, w)
    | (.ok lineage, w) =>
      match admitted child edge.heritage parent with
      | .error e => some (.error e, w)
      | .ok () => some (.ok lineage, w)
partial_fixpoint

end

end Work

def loadLineage {σ : Type} (p : Provider σ) (symbol : Symbol) (w : Work σ) :
    Option (Except ResolveError Lineage × Work σ) :=
  w.link p [] symbol

def loadChain {σ : Type} (p : Provider σ) (symbol : Symbol) (w : Work σ) :
    Option (Except ResolveError (List Lineage) × Work σ) := do
  match ← loadLineage p symbol w with
  | (.error e, w) => return (.error e, w)
  | (.ok lineage, w) => return (.ok lineage.chain, w)

end ComponentAtlas
