import ComponentAtlas.Proofs.Linking

namespace ComponentAtlas
open Outline

namespace Lineage

def parents (t : Lineage) : List Lineage := t.superclass.toList ++ t.interfaces

inductive Occurs : Lineage → Lineage → Prop where
  | here : Occurs t t
  | above (member : parent ∈ t.parents) (inside : Occurs u parent) : Occurs u t

-- A way up from the root, as the pairs of file and name that it goes through.
inductive Way : Lineage → List Hop → Prop where
  | stop : Way t [t.symbol.hop]
  | up (member : parent ∈ t.parents) (rest : Way parent hops) : Way t (t.symbol.hop :: hops)

-- No way up goes through a pair twice, or through one of the ancestry.
def Fresh (ancestry : List Hop) (t : Lineage) : Prop :=
  ∀ hops, t.Way hops → hops.Nodup ∧ ∀ hop ∈ hops, hop ∉ ancestry

theorem Fresh.root (fresh : Fresh ancestry t) : t.symbol.hop ∉ ancestry :=
  (fresh _ .stop).2 _ List.mem_cons_self

theorem Fresh.above (fresh : Fresh ancestry t) (member : parent ∈ t.parents) :
    Fresh (ancestry ++ [t.symbol.hop]) parent := by
  intro hops way
  obtain ⟨distinct, apart⟩ := fresh _ (.up member way)
  obtain ⟨new, distinct⟩ := List.nodup_cons.mp distinct
  refine ⟨distinct, fun hop inside on => ?_⟩
  rcases List.mem_append.mp on with old | last
  · exact apart hop (List.mem_cons_of_mem _ inside) old
  · obtain rfl := List.mem_singleton.mp last
    exact new inside

theorem Fresh.below (root : t.symbol.hop ∉ ancestry)
    (above : ∀ parent ∈ t.parents, Fresh (ancestry ++ [t.symbol.hop]) parent) : Fresh ancestry t := by
  intro hops way
  cases way with
  | stop => exact ⟨List.nodup_singleton _, List.forall_mem_singleton.mpr root⟩
  | up member rest =>
    obtain ⟨distinct, apart⟩ := above _ member _ rest
    refine ⟨List.nodup_cons.mpr ⟨fun inside => ?_, distinct⟩, List.forall_mem_cons.mpr ⟨root, fun hop inside on => ?_⟩⟩
    · exact apart _ inside (by simp)
    · exact apart hop inside (List.mem_append_left _ on)

theorem Fresh.alone (fresh : Fresh ancestry t) : Fresh [] t :=
  fun hops way => ⟨(fresh hops way).1, fun _ _ => List.not_mem_nil⟩

theorem Fresh.occurs (fresh : Fresh [] t) (occurs : Occurs u t) : Fresh [] u := by
  induction occurs with
  | here => exact fresh
  | above member _ ih => exact ih (fresh.above member).alone

-- One parent for every heritage entry, in order, and none besides: the superclass of a class for what it
-- extends, the interfaces for what it implements or what an interface extends.
def Mirrors (stands : Symbol → Link.Edge → Lineage → Prop) (t : Lineage) : Prop :=
  match t.symbol.declaration with
  | .classDecl d =>
    List.Forall₂ (stands t.symbol) (d.superclass.toList.map (Link.Edge.mk · false)) t.superclass.toList ∧
      List.Forall₂ (stands t.symbol) (d.interfaces.map (Link.Edge.mk · true)) t.interfaces
  | .interfaceDecl d =>
    t.superclass = none ∧ List.Forall₂ (stands t.symbol) (d.parents.map (Link.Edge.mk · true)) t.interfaces
  | .aliasDecl _ | .enumDecl _ => t.superclass = none ∧ t.interfaces = []

theorem Mirrors.imp {stands stands' : Symbol → Link.Edge → Lineage → Prop} (mirrors : Mirrors stands t)
    (step : ∀ edge, ∀ parent ∈ t.parents, stands t.symbol edge parent → stands' t.symbol edge parent) :
    Mirrors stands' t := by
  have each : ∀ {entries lineages}, lineages ⊆ t.parents → List.Forall₂ (stands t.symbol) entries lineages →
      List.Forall₂ (stands' t.symbol) entries lineages := by
    intro entries lineages inside all
    refine List.forall₂_iff_zip.mpr ⟨all.length_eq, fun {edge parent} paired => ?_⟩
    exact step edge parent (inside (List.of_mem_zip paired).2) (List.forall₂_zip all paired)
  have left := List.subset_append_left t.superclass.toList t.interfaces
  have right := List.subset_append_right t.superclass.toList t.interfaces
  unfold Mirrors at mirrors ⊢
  split at mirrors
  · exact ⟨each left mirrors.1, each right mirrors.2⟩
  · exact ⟨mirrors.1, each right mirrors.2⟩
  · exact mirrors
  · exact mirrors

@[simp] theorem symbol_ofParents (symbol : Symbol) (parents : List Lineage) : (ofParents symbol parents).symbol = symbol := by
  unfold ofParents
  split <;> rfl

theorem ofParents_plain {symbol : Symbol} {parents : List Lineage} (plain : ∀ d, symbol.declaration = .classDecl d → d.superclass = none) :
    ofParents symbol parents = .node symbol none parents := by
  unfold ofParents
  split
  · rename_i declared
    cases plain _ declared
  · rfl

theorem ofParents_extended {symbol : Symbol} {d : ClassDeclaration} {above : Lineage}
    (declared : symbol.declaration = .classDecl d) (extends? : d.superclass = some heritage)
    (kind : above.symbol.kind = .classSymbol) :
    ofParents symbol (above :: rest) = .node symbol (some above) rest := by
  cases d
  subst extends?
  simp only [ofParents, declared, kind, if_true]

-- Building a lineage of its parents loses none, if the first parent of a class that extends another is a class.
theorem mirrors_ofParents {symbol : Symbol} {parents : List Lineage} {stands : Symbol → Link.Edge → Lineage → Prop}
    (superclass : ∀ edge parent, stands symbol edge parent → edge.interfaces = false → parent.symbol.kind = .classSymbol)
    (all : List.Forall₂ (stands symbol) (Link.edges symbol.declaration) parents) :
    (ofParents symbol parents).Mirrors stands ∧ (ofParents symbol parents).parents = parents := by
  unfold Mirrors
  rw [symbol_ofParents]
  cases declared : symbol.declaration with
  | classDecl d =>
    rw [declared] at all
    cases extends? : d.superclass with
    | none =>
      simp only [Link.edges, extends?, Option.toList_none, List.map_nil, List.nil_append] at all
      rw [ofParents_plain fun _ equal => by rw [declared] at equal; cases equal; exact extends?]
      exact ⟨⟨by rw [extends?]; exact .nil, all⟩, rfl⟩
    | some heritage =>
      simp only [Link.edges, extends?, Option.toList_some, List.map_cons, List.map_nil, List.singleton_append] at all
      cases all with
      | cons first others =>
        rw [ofParents_extended declared extends? (superclass _ _ first rfl)]
        exact ⟨⟨by rw [extends?]; exact .cons first .nil, others⟩, rfl⟩
  | interfaceDecl d =>
    rw [declared] at all
    rw [ofParents_plain fun _ equal => by rw [declared] at equal; cases equal]
    exact ⟨⟨rfl, all⟩, rfl⟩
  | aliasDecl d | enumDecl d =>
    rw [declared] at all
    cases all
    rw [ofParents_plain fun _ equal => by rw [declared] at equal; cases equal]
    exact ⟨⟨rfl, rfl⟩, rfl⟩

end Lineage

namespace Link
open Work (link linkAll linkParent)

variable {σ : Type} {p : Provider σ} {v : View}

structure Meets (v : View) (child : Symbol) (edge : Edge) (parent : Lineage) : Prop where
  named : v.Names child edge parent.symbol
  admitted : admitted child edge.heritage parent.symbol = .ok ()

inductive Linked (v : View) : Lineage → Prop where
  | node (meets : List.Forall₂ (Meets v symbol) (edges symbol.declaration) parents)
      (above : ∀ parent ∈ parents, Linked v parent) : Linked v (.ofParents symbol parents)

-- What an `extends` entry of a class stands for is a class, and only interfaces stand above an interface.
theorem Meets.kinds (coherent : v.Coherent) (meets : Meets v child edge parent) :
    (edge.interfaces = false → parent.symbol.kind = .classSymbol) ∧
      (child.kind = .interfaceSymbol → parent.symbol.kind = .interfaceSymbol) := by
  refine ⟨fun off => ?_, admitted_ok meets.admitted⟩
  obtain ⟨name, -, resolves⟩ := meets.named
  rw [off] at resolves
  obtain ⟨x, declaration, -, -, here, equal⟩ := resolves.first coherent
  obtain ⟨d, rfl⟩ := Index.class_of_local? here
  rw [equal]
  rfl

theorem mirrors_ofParents (coherent : v.Coherent)
    (meets : List.Forall₂ (Meets v symbol) (edges symbol.declaration) parents) :
    (Lineage.ofParents symbol parents).Mirrors (Meets v) ∧ (Lineage.ofParents symbol parents).parents = parents :=
  Lineage.mirrors_ofParents (fun _ _ first => (first.kinds coherent).1) meets

-- A lineage comes from an ancestry that it has no pair in common with, and from its parts.
theorem link_linked (shows : p.Shows within v) (coherent : v.Coherent) (known : within w.state)
    (linked : link p ancestry symbol w = some (.ok t, w')) :
    t.symbol = symbol ∧ Linked v t ∧ t.Fresh ancestry := by
  refine ((Work.link.mutual_partial_correctness p
    (fun ancestry symbol w r => within w.state → within r.2.state ∧
      ∀ t, r.1 = .ok t → t.symbol = symbol ∧ Linked v t ∧ t.Fresh ancestry)
    (fun ancestry child entries w r => within w.state → entries ⊆ edges child.declaration → within r.2.state ∧
      ∀ parents, r.1 = .ok parents → List.Forall₂ (Meets v child) entries parents ∧
        ∀ parent ∈ parents, Linked v parent ∧ parent.Fresh ancestry)
    (fun ancestry child edge w r => within w.state → edge ∈ edges child.declaration → within r.2.state ∧
      ∀ parent, r.1 = .ok parent → Meets v child edge parent ∧ Linked v parent ∧ parent.Fresh ancestry)
    ?_ ?_ ?_).1 _ _ _ _ linked known).2 t rfl
  · intro linkAll ih ancestry symbol w r linked known
    split at linked
    · cases linked
      exact ⟨known, by rintro _ ⟨⟩⟩
    · rename_i fresh
      obtain ⟨⟨result, w'⟩, all, linked⟩ := Option.bind_eq_some_iff.mp linked
      obtain ⟨kept, built⟩ := ih _ _ _ _ _ all known (List.Subset.refl _)
      cases result with
      | error e =>
        cases linked
        exact ⟨kept, by rintro _ ⟨⟩⟩
      | ok parents =>
        cases linked
        refine ⟨by unfold noteLinked; split <;> exact kept, ?_⟩
        rintro t ⟨⟩
        obtain ⟨meets, above⟩ := built parents rfl
        have same := (mirrors_ofParents coherent meets).2
        refine ⟨Lineage.symbol_ofParents _ _, .node meets fun parent member => (above parent member).1, .below ?_ ?_⟩
        · rwa [Lineage.symbol_ofParents]
        · rw [Lineage.symbol_ofParents, same]
          exact fun parent member => (above parent member).2
  · intro linkAll linkParent ihAll ihParent ancestry child entries w r linked known inside
    split at linked
    · cases linked
      refine ⟨known, ?_⟩
      rintro parents ⟨⟩
      exact ⟨.nil, List.forall_mem_nil _⟩
    · rename_i edge rest
      obtain ⟨member, inside⟩ := List.cons_subset.mp inside
      obtain ⟨⟨result, w'⟩, one, linked⟩ := Option.bind_eq_some_iff.mp linked
      obtain ⟨kept, first⟩ := ihParent _ _ _ _ _ one known member
      cases result with
      | error e => cases linked; exact ⟨kept, by rintro _ ⟨⟩⟩
      | ok parent =>
        obtain ⟨⟨result, w''⟩, all, linked⟩ := Option.bind_eq_some_iff.mp linked
        obtain ⟨kept', later⟩ := ihAll _ _ _ _ _ all kept inside
        cases result with
        | error e => cases linked; exact ⟨kept', by rintro _ ⟨⟩⟩
        | ok parents =>
          cases linked
          refine ⟨kept', ?_⟩
          rintro all ⟨⟩
          obtain ⟨meets, built⟩ := first parent rfl
          obtain ⟨others, above⟩ := later parents rfl
          exact ⟨.cons meets others, List.forall_mem_cons.mpr ⟨built, above⟩⟩
  · intro link ih ancestry child edge w r linked known member
    obtain ⟨⟨result, w'⟩, resolved, linked⟩ := Option.bind_eq_some_iff.mp linked
    obtain ⟨kept, named⟩ := resolveHeritage_sound shows known member resolved
    cases result with
    | error e => cases linked; exact ⟨kept, by rintro _ ⟨⟩⟩
    | ok parent =>
      obtain ⟨⟨result, w''⟩, linkedParent, linked⟩ := Option.bind_eq_some_iff.mp linked
      obtain ⟨kept', built⟩ := ih _ _ _ _ linkedParent kept
      cases result with
      | error e => cases linked; exact ⟨kept', by rintro _ ⟨⟩⟩
      | ok lineage =>
        obtain ⟨rfl, above⟩ := built lineage rfl
        dsimp only at linked
        split at linked
        · cases linked; exact ⟨kept', by rintro _ ⟨⟩⟩
        · rename_i passed
          cases linked
          refine ⟨kept', ?_⟩
          rintro t ⟨⟩
          exact ⟨⟨named, passed⟩, above⟩

theorem resolveHeritage_complete (shows : p.Shows within v) (named : v.Names child edge parent) {w : Work σ}
    (known : within w.state) :
    ∃ w', resolveHeritage p child.reference edge w = some (.ok parent, w') ∧ within w'.state := by
  obtain ⟨name, form, after, notes, searched⟩ := named
  obtain ⟨w', resolved, -, kept⟩ := searched_resolve shows known searched
  exact ⟨w', by rw [resolveHeritage, form]; exact resolved, kept⟩

theorem linkAll_complete (shows : p.Shows within v) (meets : List.Forall₂ (Meets v child) entries parents)
    (links : ∀ parent ∈ parents, ∀ w, within w.state →
      ∃ w', link p ancestry parent.symbol w = some (.ok parent, w') ∧ within w'.state) :
    ∀ w, within w.state → ∃ w', linkAll p ancestry child entries w = some (.ok parents, w') ∧ within w'.state := by
  induction meets with
  | nil => exact fun w known => ⟨w, by rw [linkAll], known⟩
  | @cons edge parent entries parents first others ih =>
    obtain ⟨link, links⟩ := List.forall_mem_cons.mp links
    intro w known
    obtain ⟨w₁, resolved, known₁⟩ := resolveHeritage_complete shows first.named known
    obtain ⟨w₂, linked, known₂⟩ := link w₁ known₁
    obtain ⟨w₃, all, known₃⟩ := ih links w₂ known₂
    have one : linkParent p ancestry child edge w = some (.ok parent, w₂) := by
      rw [linkParent, resolved]
      simp only [Option.bind_eq_bind, Option.bind_some, linked, first.admitted]
    refine ⟨w₃, ?_, known₃⟩
    rw [linkAll, one]
    simp only [Option.bind_eq_bind, Option.bind_some, all]

theorem linked_link (shows : p.Shows within v) (coherent : v.Coherent) (linked : Linked v t)
    (fresh : t.Fresh ancestry) :
    ∀ w, within w.state → ∃ w', link p ancestry t.symbol w = some (.ok t, w') ∧ within w'.state := by
  induction linked generalizing ancestry with
  | @node symbol parents meets _ ih =>
    intro w known
    have root := fresh.root
    rw [Lineage.symbol_ofParents] at root ⊢
    have links : ∀ parent ∈ parents, ∀ w, within w.state →
        ∃ w', link p (ancestry ++ [symbol.hop]) parent.symbol w = some (.ok parent, w') ∧ within w'.state := by
      intro parent member
      have above := fresh.above (by rw [(mirrors_ofParents coherent meets).2]; exact member)
      rw [Lineage.symbol_ofParents] at above
      exact ih parent member above
    obtain ⟨w', all, known'⟩ := linkAll_complete shows meets links w known
    refine ⟨noteLinked (.ofParents symbol parents) w', ?_, by unfold noteLinked; split <;> exact known'⟩
    rw [link, if_neg root, all]
    rfl

theorem Linked.above {t parent : Lineage} (coherent : v.Coherent) (linked : Linked v t) (member : parent ∈ t.parents) :
    Linked v parent ∧ v.Extends t.symbol parent.symbol := by
  cases linked with
  | node meets above =>
    rw [(mirrors_ofParents coherent meets).2] at member
    refine ⟨above parent member, ?_⟩
    obtain ⟨⟨i, bound⟩, rfl⟩ := List.get_of_mem member
    rw [Lineage.symbol_ofParents]
    exact ⟨_, List.get_mem _ _, (meets.get (by rwa [meets.length_eq]) bound).named⟩

theorem Linked.occurs {t u : Lineage} (coherent : v.Coherent) (linked : Linked v t) (occurs : u.Occurs t) :
    Linked v u ∧ u.symbol.reference.package = t.symbol.reference.package := by
  induction occurs with
  | here => exact ⟨linked, rfl⟩
  | above member _ ih =>
    obtain ⟨linked', step⟩ := linked.above coherent member
    obtain ⟨inside, package⟩ := ih linked'
    exact ⟨inside, package.trans (step.known coherent).2.1⟩

theorem Linked.mirrors (coherent : v.Coherent) (linked : Linked v t) : t.Mirrors (Meets v) := by
  cases linked with
  | node meets above => exact (mirrors_ofParents coherent meets).1

-- What a parent in a lineage is for the heritage entry that it stands for: what the entry resolves to, with
-- all that linking it alone puts above it, at any time after the start.
structure Stands (p : Provider σ) (start : σ) (child : Symbol) (edge : Edge) (parent : Lineage) : Prop where
  resolved : ∀ w : Work σ, p.Reaches start w.state →
    ∃ w', resolveHeritage p child.reference edge w = some (.ok parent.symbol, w')
  alone : ∀ w : Work σ, p.Reaches start w.state → ∃ w', loadLineage p parent.symbol w = some (.ok parent, w')
  superclass : edge.interfaces = false → parent.symbol.kind = .classSymbol
  interface : child.kind = .interfaceSymbol → parent.symbol.kind = .interfaceSymbol

end Link

-- A linked lineage keeps its symbol, has one parent for every heritage entry of every symbol in it, and
-- repeats no pair of file and name on a way up.
theorem loadLineage_mirrors {σ : Type} {p : Provider σ} {start : σ} {w w' : Work σ} {t : Lineage}
    (consistent : p.Consistent start) (reached : p.Reaches start w.state)
    (loaded : loadLineage p symbol w = some (.ok t, w')) :
    t.symbol = symbol ∧
      (∀ u : Lineage, u.Occurs t → u.Mirrors (Link.Stands p start) ∧
        u.symbol.reference.package = symbol.reference.package) ∧
      ∀ hops, t.Way hops → hops.Nodup := by
  have shows := consistent.shows
  have coherent := consistent.coherent
  obtain ⟨rfl, linked, fresh⟩ := Link.link_linked shows coherent reached loaded
  refine ⟨rfl, fun u occurs => ?_, fun hops way => (fresh hops way).1⟩
  obtain ⟨inside, package⟩ := linked.occurs coherent occurs
  refine ⟨(inside.mirrors coherent).imp fun edge parent member meets => ?_, package⟩
  have linkedParent := (inside.above coherent member).1
  have freshParent := ((fresh.occurs occurs).above member).alone
  obtain ⟨superclass, interface⟩ := meets.kinds coherent
  refine ⟨fun later known => ?_, fun later known => ?_, superclass, interface⟩
  · obtain ⟨w'', resolved, -⟩ := Link.resolveHeritage_complete shows meets.named known
    exact ⟨w'', resolved⟩
  · obtain ⟨w'', alone, -⟩ := Link.linked_link shows coherent linkedParent freshParent later known
    exact ⟨w'', alone⟩

def axle : Declaration := .classDecl { (default : ClassDeclaration) with name := "Axle" }

def wheel : Declaration :=
  .classDecl { (default : ClassDeclaration) with
    name := "Wheel"
    superclass := some { (default : Heritage) with form := .identifier "Axle" }
    interfaces := [{ (default : Heritage) with form := .identifier "Round" }] }

def garage : SourceFile := .ofForms "shapes.ts" ([rung "Round" [], axle, wheel].map (.declaration .named ·))

theorem loadLineage_mirrors_wheel : ∃ t w',
    loadLineage (.ofFiles [garage]) (seat wheel) (.start ()) = some (.ok t, w') ∧
      t.superclass.map (·.symbol) = some (seat axle) ∧ t.interfaces.map (·.symbol) = [seat (rung "Round" [])] ∧
      t.Mirrors (Link.Stands (.ofFiles [garage]) ()) ∧ ∀ hops, t.Way hops → hops.Nodup := by
  let p := Provider.ofFiles [garage]
  have consistent : p.Consistent () := Provider.ofFiles_consistent _
  have names : ∀ edge d, edge.heritage.form = .identifier d.name →
      (Place.of garage d.name).declaration? (.ofInterfaces edge.interfaces) = some d →
      (p.view ()).Names (seat wheel) edge (seat d) := by
    intro edge d form here
    have entered : (p.view ()).enter d.name (.file ⟨"shapes.ts"⟩) = some (.of garage d.name) :=
      View.enter_ofFiles _ (by decide +kernel) (by decide +kernel)
    exact ⟨d.name, form, _, _, .entered entered List.not_mem_nil (.declared here)⟩
  have top : ∀ d, Link.edges d = [] → Link.Linked (p.view ()) (.ofParents (seat d) []) := by
    intro d none
    refine .node ?_ nofun
    rw [show Link.edges (seat d).declaration = [] from none]
    exact .nil
  have linked : Link.Linked (p.view ()) (.ofParents (seat wheel)
      [.ofParents (seat axle) [], .ofParents (seat (rung "Round" [])) []]) := by
    refine .node (.cons ⟨names _ axle rfl (by decide +kernel), rfl⟩
      (.cons ⟨names _ (rung "Round" []) rfl (by decide +kernel), rfl⟩ .nil)) ?_
    exact List.forall_mem_cons.mpr ⟨top axle rfl, List.forall_mem_singleton.mpr (top (rung "Round" []) rfl)⟩
  have fresh : Lineage.Fresh [] (.ofParents (seat wheel)
      [.ofParents (seat axle) [], .ofParents (seat (rung "Round" [])) []]) := by
    refine .below List.not_mem_nil (List.forall_mem_cons.mpr ⟨?_, List.forall_mem_singleton.mpr ?_⟩)
    · exact .below (by decide +kernel) nofun
    · exact .below (by decide +kernel) nofun
  obtain ⟨w', loaded, -⟩ := Link.linked_link (p := p) consistent.shows consistent.coherent linked fresh (.start ()) .refl
  obtain ⟨-, mirrors, distinct⟩ := loadLineage_mirrors consistent .refl loaded
  exact ⟨_, w', loaded, rfl, rfl, (mirrors _ .here).1, distinct⟩

end ComponentAtlas
