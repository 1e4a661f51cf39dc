import ComponentAtlas.Proofs.HeritageGraph

namespace ComponentAtlas
open Outline

def ResolveError.Cyclic : ResolveError → Prop
  | cyclicHierarchy .. => True
  | _ => False

namespace View

variable {σ : Type} {p : Provider σ} {v : View}

theorem Resolves.not_cyclic (shows : p.Shows within v) (known : within state)
    (resolves : v.Resolves kinds reference (.error e)) : ¬ e.Cyclic := by
  intro cyclic
  obtain ⟨after, notes, searched⟩ := resolves
  have other : e.isSymbolNotFound = false := by cases e <;> first | rfl | exact cyclic.elim
  obtain ⟨goal, -, broken⟩ := Search.escapes_of_searched searched other
  rw [← shows.answers known] at broken
  have ofFile := opened_error broken
  cases e <;> first | exact ofFile | exact cyclic

theorem Names.unique (shows : p.Shows within v) (known : within state)
    (one : v.Names child edge parent) (two : v.Names child edge parent') : parent = parent' := by
  obtain ⟨name, form, resolves⟩ := one
  exact Except.ok.inj (resolves.unique shows known (two.resolves form))

end View

namespace Link
open Work (link linkAll linkParent)

variable {σ : Type} {p : Provider σ} {v : View}

-- Nothing above a symbol is amiss, and nothing above it belongs to the ancestry.
structure Rises (v : View) (ancestry : List Hop) (symbol : Symbol) : Prop where
  proper : ∀ x, v.Ancestor symbol x → v.Proper x
  fresh : ∀ x, v.Ancestor symbol x → x.hop ∉ ancestry
  acyclic : ∀ x y, v.Ancestor symbol x → Relation.TransGen v.Extends x y → x.hop ≠ y.hop

-- Some walk up from a symbol ends in one that is amiss or closes a cycle.
def Falls (v : View) (ancestry : List Hop) (symbol : Symbol) (e : ResolveError) : Prop :=
  ∃ trail x, v.Walk symbol trail x ∧ (ancestry.Nodup → (ancestry ++ trail.map (·.hop)).Nodup) ∧
    ((¬ v.Proper x ∧ ¬ e.Cyclic) ∨
      (x.hop ∈ ancestry ++ trail.map (·.hop) ∧ e = cyclic (ancestry ++ trail.map (·.hop)) x))

def Verdict (v : View) (ancestry : List Hop) (symbol : Symbol) : Except ResolveError Lineage → Prop
  | .ok _ => Rises v ancestry symbol
  | .error e => Falls v ancestry symbol e

def Joins (v : View) (ancestry : List Hop) (child : Symbol) (edge : Edge) : Prop :=
  ∃ parent, v.Names child edge parent ∧ Rises v ancestry parent ∧ admitted child edge.heritage parent = .ok ()

def Breaks (v : View) (ancestry : List Hop) (child : Symbol) (e : ResolveError) : Prop :=
  (¬ v.Proper child ∧ ¬ e.Cyclic) ∨ ∃ parent, v.Extends child parent ∧ Falls v ancestry parent e

def VerdictOn {α : Type} (v : View) (ancestry : List Hop) (child : Symbol) (edges : List Edge) :
    Except ResolveError α → Prop
  | .ok _ => ∀ edge ∈ edges, Joins v ancestry child edge
  | .error e => Breaks v ancestry child e

theorem admitted_ok (passed : admitted child heritage parent = .ok ()) (interface : child.kind = .interfaceSymbol) :
    parent.kind = .interfaceSymbol := by
  unfold admitted at passed
  split at passed
  · cases passed
  · rename_i allowed
    exact Classical.not_not.mp fun other => allowed ⟨interface, other⟩

theorem admitted_error (refused : admitted child heritage parent = .error e) :
    child.kind = .interfaceSymbol ∧ parent.kind ≠ .interfaceSymbol ∧ ¬ e.Cyclic := by
  unfold admitted at refused
  split at refused
  · rename_i both
    cases refused
    exact ⟨both.1, both.2, id⟩
  · cases refused

theorem rises_of_joins (shows : p.Shows within v) (known : within state) (fresh : symbol.hop ∉ ancestry)
    (joins : ∀ edge ∈ edges symbol.declaration, Joins v (ancestry ++ [symbol.hop]) symbol edge) :
    Rises v ancestry symbol := by
  -- Whatever the symbol extends is the parent that was linked for the entry.
  have above : ∀ parent, v.Extends symbol parent → Rises v (ancestry ++ [symbol.hop]) parent ∧
      (symbol.kind = .interfaceSymbol → parent.kind = .interfaceSymbol) := by
    rintro parent ⟨edge, member, named⟩
    obtain ⟨parent', named', rises, passed⟩ := joins edge member
    obtain rfl := named.unique shows known named'
    exact ⟨rises, admitted_ok passed⟩
  have proper : v.Proper symbol := by
    refine .of_named (fun edge member => ?_) fun interface parent step => (above parent step).2 interface
    obtain ⟨parent, named, -⟩ := joins edge member
    exact ⟨parent, named⟩
  refine ⟨fun x reached => ?_, fun x reached => ?_, fun x y reached way => ?_⟩
  · rcases reached.cases_head with rfl | ⟨parent, step, rest⟩
    · exact proper
    · exact (above parent step).1.proper x rest
  · rcases reached.cases_head with rfl | ⟨parent, step, rest⟩
    · exact fresh
    · exact fun member => (above parent step).1.fresh x rest (List.mem_append_left _ member)
  · rcases reached.cases_head with rfl | ⟨parent, step, rest⟩
    · obtain ⟨parent, step, rest⟩ := Relation.TransGen.head'_iff.mp way
      exact fun equal => (above parent step).1.fresh y rest (by simp [equal])
    · exact (above parent step).1.acyclic x y rest way

theorem falls_of_breaks (fresh : symbol.hop ∉ ancestry) (breaks : Breaks v (ancestry ++ [symbol.hop]) symbol e) :
    Falls v ancestry symbol e := by
  rcases breaks with ⟨improper, other⟩ | ⟨parent, step, trail, x, walk, distinct, why⟩
  · exact ⟨[], symbol, .here, by simp, .inl ⟨improper, other⟩⟩
  · have longer : ancestry ++ [symbol.hop] ++ trail.map (·.hop) = ancestry ++ (symbol :: trail).map (·.hop) := by simp
    rw [longer] at distinct why
    refine ⟨symbol :: trail, x, .up step walk, fun before => distinct ?_, why⟩
    rw [List.nodup_append_comm]
    exact List.nodup_cons.mpr ⟨fresh, before⟩

theorem resolveHeritage_sound (shows : p.Shows within v) (known : within w.state)
    (member : edge ∈ edges child.declaration)
    (resolved : resolveHeritage p child.reference edge w = some (result, w')) :
    within w'.state ∧ match result with
      | .ok parent => v.Names child edge parent
      | .error e => ¬ v.Proper child ∧ ¬ e.Cyclic := by
  unfold resolveHeritage at resolved
  split at resolved
  · rename_i kind form
    cases resolved
    refine ⟨known, fun proper => ?_, id⟩
    obtain ⟨name, form'⟩ := proper.identified edge member
    rw [form] at form'
    cases form'
  · rename_i name form
    obtain ⟨kept, resolves⟩ := resolve_sound shows known resolved
    refine ⟨kept, ?_⟩
    cases result with
    | ok parent => exact ⟨name, form, resolves⟩
    | error e =>
      refine ⟨fun proper => ?_, resolves.not_cyclic shows known⟩
      obtain ⟨parent, resolves'⟩ := proper.resolved edge member name form
      cases resolves.unique shows known resolves'

theorem link_sound (shows : p.Shows within v) (known : within w.state)
    (linked : link p ancestry symbol w = some (result, w')) :
    within w'.state ∧ Verdict v ancestry symbol result := by
  refine (Work.link.mutual_partial_correctness p
    (fun ancestry symbol w r => within w.state → within r.2.state ∧ Verdict v ancestry symbol r.1)
    (fun ancestry child entries w r => within w.state → entries ⊆ edges child.declaration →
      within r.2.state ∧ VerdictOn v ancestry child entries r.1)
    (fun ancestry child edge w r => within w.state → edge ∈ edges child.declaration →
      within r.2.state ∧ VerdictOn v ancestry child [edge] r.1)
    ?_ ?_ ?_).1 _ _ _ _ linked known
  · intro linkAll ih ancestry symbol w r linked known
    split at linked
    · rename_i again
      cases linked
      exact ⟨known, [], symbol, .here, by simp, .inr (by simpa using again)⟩
    · rename_i fresh
      obtain ⟨⟨result, w'⟩, all, linked⟩ := Option.bind_eq_some_iff.mp linked
      obtain ⟨kept, verdict⟩ := ih _ _ _ _ _ all known (List.Subset.refl _)
      cases result with
      | error e =>
        cases linked
        exact ⟨kept, falls_of_breaks fresh verdict⟩
      | ok parents =>
        cases linked
        refine ⟨?_, rises_of_joins shows known fresh verdict⟩
        unfold noteLinked
        split <;> exact kept
  · intro linkAll linkParent ihAll ihParent ancestry child entries w r linked known inside
    split at linked
    · cases linked
      exact ⟨known, by simp [VerdictOn]⟩
    · rename_i edge rest
      obtain ⟨member, inside⟩ := List.cons_subset.mp inside
      obtain ⟨⟨result, w'⟩, one, linked⟩ := Option.bind_eq_some_iff.mp linked
      obtain ⟨kept, first⟩ := ihParent _ _ _ _ _ one known member
      cases result with
      | error e => cases linked; exact ⟨kept, first⟩
      | ok parent =>
        obtain ⟨⟨result, w''⟩, all, linked⟩ := Option.bind_eq_some_iff.mp linked
        obtain ⟨kept', later⟩ := ihAll _ _ _ _ _ all kept inside
        cases result with
        | error e => cases linked; exact ⟨kept', later⟩
        | ok parents =>
          cases linked
          exact ⟨kept', List.forall_mem_cons.mpr ⟨first edge List.mem_cons_self, later⟩⟩
  · intro link ih ancestry child edge w r linked known member
    obtain ⟨⟨result, w'⟩, resolved, linked⟩ := Option.bind_eq_some_iff.mp linked
    obtain ⟨kept, named⟩ := resolveHeritage_sound shows known member resolved
    cases result with
    | error e => cases linked; exact ⟨kept, .inl named⟩
    | ok parent =>
      have step : v.Extends child parent := ⟨edge, member, named⟩
      obtain ⟨⟨result, w''⟩, linkedParent, linked⟩ := Option.bind_eq_some_iff.mp linked
      obtain ⟨kept', verdict⟩ := ih _ _ _ _ linkedParent kept
      cases result with
      | error e => cases linked; exact ⟨kept', .inr ⟨parent, step, verdict⟩⟩
      | ok lineage =>
        dsimp only at linked
        split at linked
        · rename_i e refused
          cases linked
          obtain ⟨interface, other, uncyclic⟩ := admitted_error refused
          exact ⟨kept', .inl ⟨fun proper => other (proper.interfaces interface parent step), uncyclic⟩⟩
        · rename_i passed
          cases linked
          exact ⟨kept', List.forall_mem_singleton.mpr ⟨parent, named, verdict, passed⟩⟩

theorem resolveHeritage_ends (shows : p.Shows within v) (coherent : v.Coherent) (finite : v.places.Finite)
    (known : within w.state) (child : Symbol) (edge : Edge) :
    ∃ r, resolveHeritage p child.reference edge w = some r := by
  unfold resolveHeritage
  split
  · exact ⟨_, rfl⟩
  · obtain ⟨result, resolves⟩ := View.resolves_total coherent finite _ _
    obtain ⟨w', resolved⟩ := resolve_complete shows known resolves
    exact ⟨_, resolved⟩

theorem linkParent_ends (shows : p.Shows within v) (coherent : v.Coherent) (finite : v.places.Finite)
    (known : within w.state) (member : edge ∈ edges child.declaration)
    (parents : ∀ parent, v.Extends child parent → ∀ w, within w.state → ∃ r, link p ancestry parent w = some r) :
    ∃ r, linkParent p ancestry child edge w = some r ∧ within r.2.state := by
  obtain ⟨⟨result, w'⟩, resolved⟩ := resolveHeritage_ends shows coherent finite known child edge
  obtain ⟨kept, named⟩ := resolveHeritage_sound shows known member resolved
  rw [linkParent, resolved]
  cases result with
  | error e => exact ⟨_, rfl, kept⟩
  | ok parent =>
    obtain ⟨⟨result, w''⟩, linked⟩ := parents parent ⟨edge, member, named⟩ w' kept
    have kept' := (link_sound shows kept linked).1
    simp only [Option.bind_eq_bind, Option.bind_some, linked]
    cases result with
    | error e => exact ⟨_, rfl, kept'⟩
    | ok lineage => cases admitted child edge.heritage parent <;> exact ⟨_, rfl, kept'⟩

theorem linkAll_ends (shows : p.Shows within v) (coherent : v.Coherent) (finite : v.places.Finite)
    (parents : ∀ parent, v.Extends child parent → ∀ w, within w.state → ∃ r, link p ancestry parent w = some r)
    (inside : entries ⊆ edges child.declaration) (known : within w.state) :
    ∃ r, linkAll p ancestry child entries w = some r := by
  induction entries generalizing w with
  | nil => exact ⟨_, by rw [linkAll]⟩
  | cons edge rest ih =>
    obtain ⟨member, inside⟩ := List.cons_subset.mp inside
    obtain ⟨⟨result, w'⟩, one, kept⟩ := linkParent_ends shows coherent finite known member parents
    rw [linkAll, one]
    cases result with
    | error e => exact ⟨_, rfl⟩
    | ok parent =>
      obtain ⟨⟨result, w''⟩, all⟩ := ih inside kept
      simp only [Option.bind_eq_bind, Option.bind_some, all]
      cases result <;> exact ⟨_, rfl⟩

-- No pair is entered twice on a walk, and there are finitely many pairs.
theorem link_ends (shows : p.Shows within v) (coherent : v.Coherent) (finite : v.places.Finite)
    (symbol : Symbol) (familiar : v.Known symbol) (known : within w.state) (ancestry : List Hop) :
    ∃ r, link p ancestry symbol w = some r := by
  have keys := View.keys_finite coherent finite
  induction measure : unused keys.toFinset ancestry using Nat.strongRecOn generalizing symbol w ancestry with
  | _ n ih =>
    rw [link]
    split
    · exact ⟨_, rfl⟩
    · rename_i fresh
      have fewer : unused keys.toFinset (ancestry ++ [symbol.hop]) < n := by
        have same : unused keys.toFinset (ancestry ++ [symbol.hop]) ≤ unused keys.toFinset (symbol.hop :: ancestry) :=
          unused_le (by simp)
        have less := unused_cons_lt (keys.mem_toFinset.mpr ⟨symbol, familiar, rfl⟩) fresh
        omega
      have parents : ∀ parent, v.Extends symbol parent → ∀ w, within w.state →
          ∃ r, link p (ancestry ++ [symbol.hop]) parent w = some r :=
        fun parent step w known => ih _ fewer parent (step.known coherent).1 known _ rfl
      obtain ⟨⟨result, w'⟩, all⟩ := linkAll_ends shows coherent finite parents (List.Subset.refl _) known
      rw [all]
      cases result <;> exact ⟨_, rfl⟩

end Link

-- Interfaces with a shared ancestor.
def rung (name : String) (parents : List String) : Declaration :=
  .interfaceDecl { (default : InterfaceDeclaration) with
    name, parents := parents.map fun parent => { (default : Heritage) with form := .identifier parent } }

def disc : Declaration := rung "Disc" ["Round", "Flat"]

def rungs : List Declaration := [rung "Shape" [], rung "Round" ["Shape"], rung "Flat" ["Shape"], disc]

def seat (declaration : Declaration) : Symbol :=
  { reference := { Reference.of declaration.name ⟨"shapes.ts"⟩ with referrer := some ⟨"shapes.ts"⟩ }, declaration }

def height (hop : Hop) : Nat :=
  match hop.name with
  | "Shape" => 0
  | "Disc" => 2
  | _ => 1

end ComponentAtlas
