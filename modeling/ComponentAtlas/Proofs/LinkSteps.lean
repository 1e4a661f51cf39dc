import ComponentAtlas.Proofs.LineageShape
import ComponentAtlas.Proofs.Lockstep

namespace ComponentAtlas
open Outline

variable {σ : Type} {p : Provider σ} {within : σ → Prop}

-- Some file has the declaration under the name of the symbol, and the kinds that were asked for admit it.
def Symbol.DeclaredFor (kinds : KindFilter) (symbol : Symbol) : Prop :=
  ∃ index : Index, index.local? kinds symbol.name = some symbol.declaration

theorem Symbol.DeclaredFor.class {symbol : Symbol} (declared : symbol.DeclaredFor .classes) :
    ∃ d, symbol.declaration = .classDecl d := by
  obtain ⟨index, here⟩ := declared
  exact Index.class_of_local? here

theorem resolve_declared {symbol : Symbol} (resolved : resolve p kinds reference w = some (.ok symbol, w')) :
    symbol.DeclaredFor kinds := by
  obtain ⟨⟨result, s⟩, searched, equal⟩ := Option.bind_eq_some_iff.mp resolved
  cases equal
  let request : Request := { kinds, origin := reference }
  refine (Search.lookup.mutual_partial_correctness p request
    (fun _ _ _ r => ∀ symbol, r.1 = .ok symbol → symbol.DeclaredFor kinds)
    (fun _ _ _ _ r => ∀ symbol, r.1 = .ok symbol → symbol.DeclaredFor kinds)
    (fun _ _ _ _ r => ∀ symbol, r.1 = some symbol → symbol.DeclaredFor kinds)
    (fun _ _ _ _ r => ∀ symbol, r.1 = .ok symbol → symbol.DeclaredFor kinds)
    ?_ ?_ ?_ ?_).1 _ _ _ _ searched symbol rfl
  · intro expand ih name path s r looked symbol found
    split at looked
    · cases looked
      cases found
    · dsimp only at looked
      split at looked
      · cases looked
        cases found
      · exact ih _ _ _ _ _ looked symbol found
  · intro firstOf follow ihFirst ihFollow name file index s r expanded symbol found
    split at expanded
    · rename_i here
      cases expanded
      cases found
      exact ⟨index, here⟩
    · split at expanded
      · exact ihFollow _ _ _ _ _ expanded symbol found
      · obtain ⟨⟨first, s'⟩, scanned, expanded⟩ := Option.bind_eq_some_iff.mp expanded
        cases first with
        | some other =>
          cases expanded
          cases found
          exact ihFirst _ _ _ _ _ scanned symbol rfl
        | none =>
          cases expanded
          cases found
  · intro firstOf follow ihFirst ihFollow name referrer targets s r scanned symbol found
    split at scanned
    · cases scanned
      cases found
    · obtain ⟨⟨result, s'⟩, followed, scanned⟩ := Option.bind_eq_some_iff.mp scanned
      cases result with
      | ok other =>
        cases scanned
        cases found
        exact ihFollow _ _ _ _ _ followed symbol rfl
      | error e => exact ihFirst _ _ _ _ _ scanned symbol found
  · intro lookup ih name target referrer s r followed symbol found
    split at followed
    · exact ih _ _ _ _ followed symbol found
    · cases followed
      cases found

theorem Work.openFile_abreast {w w' : Work σ} (same : w.state = w'.state) (path : Path) :
    (w.openFile p path).1 = (w'.openFile p path).1 ∧ (w.openFile p path).2.state = (w'.openFile p path).2.state := by
  rw [openFile_result, openFile_result, (openFile_work w path).1, (openFile_work w' path).1, same]
  exact ⟨rfl, rfl⟩

namespace Search

-- Two searches that differ in nothing but what they have reported.
structure Abreast (s s' : Search σ) : Prop where
  state : s.work.state = s'.work.state
  visited : s.visited = s'.visited

theorem Abreast.noted {s s' : Search σ} (abreast : s.Abreast s') (one : Noted s t notes) (two : Noted s' t' notes') :
    t.Abreast t' where
  state := by rw [one.state, two.state, abreast.state]
  visited := by rw [one.visited, two.visited, abreast.visited]

theorem lookup_abreast {request : Request} {r : Result σ} (ran : lookup p request name path s = some r)
    (abreast : s.Abreast s') : ∃ r', lookup p request name path s' = some r' ∧ r.1 = r'.1 ∧ r.2.Abreast r'.2 := by
  refine (lookup.mutual_partial_correctness p request
    (fun name path s r => ∀ s', s.Abreast s' →
      ∃ r', lookup p request name path s' = some r' ∧ r.1 = r'.1 ∧ r.2.Abreast r'.2)
    (fun name file index s r => ∀ s', s.Abreast s' →
      ∃ r', expand p request name file index s' = some r' ∧ r.1 = r'.1 ∧ r.2.Abreast r'.2)
    (fun name referrer targets s r => ∀ s', s.Abreast s' →
      ∃ r', firstOf p request name referrer targets s' = some r' ∧ r.1 = r'.1 ∧ r.2.Abreast r'.2)
    (fun name target referrer s r => ∀ s', s.Abreast s' →
      ∃ r', follow p request name target referrer s' = some r' ∧ r.1 = r'.1 ∧ r.2.Abreast r'.2)
    ?_ ?_ ?_ ?_).1 _ _ _ _ ran s' abreast
  · intro expand ih name path s r ran s' abreast
    obtain ⟨answers, states⟩ := Work.openFile_abreast (p := p) abreast.state path
    rw [lookup]
    generalize s.work.openFile p path = one at ran answers states
    generalize s'.work.openFile p path = two at answers states
    obtain ⟨answer, work⟩ := one
    obtain ⟨answer', work'⟩ := two
    cases answers
    cases answer with
    | error e =>
      cases ran
      exact ⟨_, rfl, rfl, states, abreast.visited⟩
    | ok x =>
      dsimp only at ran ⊢
      rw [← abreast.visited]
      split at ran
      · rename_i seen
        cases ran
        rw [if_pos seen]
        exact ⟨_, rfl, rfl, states, rfl⟩
      · rename_i fresh
        rw [if_neg fresh]
        exact ih _ _ _ _ _ ran _ ⟨states, rfl⟩
  · intro firstOf follow ihFirst ihFollow name file index s r ran s' abreast
    rw [expand]
    split at ran
    · cases ran
      exact ⟨_, rfl, rfl, abreast⟩
    · split at ran
      · exact ihFollow _ _ _ _ _ ran _ abreast
      · obtain ⟨⟨found, middle⟩, first, ran⟩ := Option.bind_eq_some_iff.mp ran
        obtain ⟨⟨found', middle'⟩, first', same, between⟩ := ihFirst _ _ _ _ _ first _ abreast
        cases same
        rw [first']
        cases found with
        | some symbol =>
          cases ran
          exact ⟨_, rfl, rfl, between⟩
        | none =>
          cases ran
          exact ⟨_, rfl, rfl, between.noted (noted_unfollowed ..) (noted_unfollowed ..)⟩
  · intro firstOf follow ihFirst ihFollow name referrer targets s r ran s' abreast
    rw [Search.firstOf.eq_def]
    split at ran
    · cases ran
      exact ⟨_, rfl, rfl, abreast⟩
    · obtain ⟨⟨result, middle⟩, one, ran⟩ := Option.bind_eq_some_iff.mp ran
      obtain ⟨⟨result', middle'⟩, one', same, between⟩ := ihFollow _ _ _ _ _ one _ abreast
      cases same
      rw [one']
      cases result with
      | ok symbol =>
        cases ran
        exact ⟨_, rfl, rfl, between⟩
      | error e => exact ihFirst _ _ _ _ _ ran _ (between.noted (noted_passOver ..) (noted_passOver ..))
  · intro lookup ih name target referrer s r ran s' abreast
    rw [Search.follow.eq_def]
    split at ran
    · exact ih _ _ _ _ ran _ abreast
    · cases ran
      exact ⟨_, rfl, rfl, abreast.state, abreast.visited⟩

end Search

theorem resolve_abreast (resolved : resolve p kinds reference w = some (result, w'))
    {v : Work σ} (same : w.state = v.state) : ∃ v', resolve p kinds reference v = some (result, v') := by
  obtain ⟨⟨result, s⟩, searched, equal⟩ := Option.bind_eq_some_iff.mp resolved
  cases equal
  have abreast : Search.Abreast { work := w, visited := [] } { work := v, visited := [] } := ⟨same, rfl⟩
  obtain ⟨⟨result', s'⟩, searched', rfl, -⟩ := Search.lookup_abreast searched abreast
  exact ⟨s'.work, Option.bind_eq_some_iff.mpr ⟨_, searched', rfl⟩⟩

theorem resolve_kept (kept : ∀ state path, within state → within (p.load path state).state) (known : within w.state)
    (resolved : resolve p kinds reference w = some r) : within r.2.state := by
  obtain ⟨_, -, -, after⟩ := (Lockstep.of_kept kept).resolve ⟨rfl, rfl, rfl⟩ (.self known) resolved
  exact after.state.2

namespace Link
open Work (link linkAll linkParent)

theorem resolveHeritage_kept (kept : ∀ state path, within state → within (p.load path state).state)
    (known : within w.state) (resolved : resolveHeritage p child edge w = some r) : within r.2.state := by
  unfold resolveHeritage at resolved
  split at resolved
  · cases resolved
    exact known
  · exact resolve_kept kept known resolved

theorem resolveHeritage_class (plain : edge.interfaces = false)
    (resolved : resolveHeritage p child edge w = some (.ok parent, w')) : parent.kind = .classSymbol := by
  unfold resolveHeritage at resolved
  split at resolved
  · cases resolved
  · rw [plain] at resolved
    obtain ⟨d, declared⟩ := (resolve_declared resolved).class
    simp [Symbol.kind, declared]

theorem resolveHeritage_abreast (resolved : resolveHeritage p child edge w = some (result, w')) {v : Work σ}
    (same : w.state = v.state) : ∃ v', resolveHeritage p child edge v = some (result, v') := by
  unfold resolveHeritage at resolved ⊢
  split at resolved
  · cases resolved
    exact ⟨v, rfl⟩
  · exact resolve_abreast resolved same

structure Found (p : Provider σ) (within : σ → Prop) (child : Symbol) (edge : Edge) (parent : Lineage) : Prop where
  resolved : ∃ w w' : Work σ, within w.state ∧ resolveHeritage p child.reference edge w = some (.ok parent.symbol, w')
  admitted : admitted child edge.heritage parent.symbol = .ok ()

-- What a link builds under an ancestry.
inductive Built (p : Provider σ) (within : σ → Prop) : List Hop → Lineage → Prop where
  | node (fresh : symbol.hop ∉ ancestry) (found : List.Forall₂ (Found p within symbol) (edges symbol.declaration) parents)
      (above : ∀ parent ∈ parents, Built p within (ancestry ++ [symbol.hop]) parent) :
      Built p within ancestry (.ofParents symbol parents)

theorem link_built (kept : ∀ state path, within state → within (p.load path state).state) (known : within w.state)
    (linked : link p ancestry symbol w = some (.ok t, w')) : t.symbol = symbol ∧ Built p within ancestry t := by
  refine ((Work.link.mutual_partial_correctness p
    (fun ancestry symbol w r => within w.state → within r.2.state ∧
      ∀ t, r.1 = .ok t → t.symbol = symbol ∧ Built p within ancestry t)
    (fun ancestry child entries w r => within w.state → within r.2.state ∧
      ∀ parents, r.1 = .ok parents → List.Forall₂ (Found p within child) entries parents ∧
        ∀ parent ∈ parents, Built p within ancestry parent)
    (fun ancestry child edge w r => within w.state → within r.2.state ∧
      ∀ parent, r.1 = .ok parent → Found p within child edge parent ∧ Built p within ancestry parent)
    ?_ ?_ ?_).1 _ _ _ _ linked known).2 t rfl
  · intro linkAll ih ancestry symbol w r linked known
    split at linked
    · cases linked
      exact ⟨known, by rintro _ ⟨⟩⟩
    · rename_i fresh
      obtain ⟨⟨result, w'⟩, all, linked⟩ := Option.bind_eq_some_iff.mp linked
      obtain ⟨after, built⟩ := ih _ _ _ _ _ all known
      cases result with
      | error e =>
        cases linked
        exact ⟨after, by rintro _ ⟨⟩⟩
      | ok parents =>
        cases linked
        refine ⟨by unfold noteLinked; split <;> exact after, ?_⟩
        intro t equal
        cases equal
        obtain ⟨found, above⟩ := built parents rfl
        exact ⟨Lineage.symbol_ofParents _ _, .node fresh found above⟩
  · intro linkAll linkParent ihAll ihParent ancestry child entries w r linked known
    split at linked
    · cases linked
      refine ⟨known, ?_⟩
      intro parents equal
      cases equal
      exact ⟨.nil, List.forall_mem_nil _⟩
    · obtain ⟨⟨result, w'⟩, one, linked⟩ := Option.bind_eq_some_iff.mp linked
      obtain ⟨between, first⟩ := ihParent _ _ _ _ _ one known
      cases result with
      | error e =>
        cases linked
        exact ⟨between, by rintro _ ⟨⟩⟩
      | ok parent =>
        obtain ⟨⟨result, w''⟩, all, linked⟩ := Option.bind_eq_some_iff.mp linked
        obtain ⟨after, later⟩ := ihAll _ _ _ _ _ all between
        cases result with
        | error e =>
          cases linked
          exact ⟨after, by rintro _ ⟨⟩⟩
        | ok parents =>
          cases linked
          refine ⟨after, ?_⟩
          intro all equal
          cases equal
          obtain ⟨found, built⟩ := first parent rfl
          obtain ⟨others, above⟩ := later parents rfl
          exact ⟨.cons found others, List.forall_mem_cons.mpr ⟨built, above⟩⟩
  · intro link ih ancestry child edge w r linked known
    obtain ⟨⟨result, w'⟩, resolved, linked⟩ := Option.bind_eq_some_iff.mp linked
    have between := resolveHeritage_kept kept known resolved
    cases result with
    | error e =>
      cases linked
      exact ⟨between, by rintro _ ⟨⟩⟩
    | ok parent =>
      obtain ⟨⟨result, w''⟩, linkedParent, linked⟩ := Option.bind_eq_some_iff.mp linked
      obtain ⟨after, built⟩ := ih _ _ _ _ linkedParent between
      cases result with
      | error e =>
        cases linked
        exact ⟨after, by rintro _ ⟨⟩⟩
      | ok lineage =>
        obtain ⟨rfl, above⟩ := built lineage rfl
        dsimp only at linked
        split at linked
        · cases linked
          exact ⟨after, by rintro _ ⟨⟩⟩
        · rename_i passed
          cases linked
          refine ⟨after, ?_⟩
          intro t equal
          cases equal
          exact ⟨⟨⟨w, w', known, resolved⟩, passed⟩, above⟩

theorem found_mirrors (found : List.Forall₂ (Found p within symbol) (edges symbol.declaration) parents) :
    (Lineage.ofParents symbol parents).Mirrors (Found p within) ∧ (Lineage.ofParents symbol parents).parents = parents := by
  refine Lineage.mirrors_ofParents ?_ found
  intro edge parent one plain
  obtain ⟨w, w', -, resolved⟩ := one.resolved
  exact resolveHeritage_class plain resolved

theorem Built.above (built : Built p within ancestry t) :
    t.Mirrors (Found p within) ∧ List.Forall₂ (Found p within t.symbol) (edges t.symbol.declaration) t.parents ∧
      ∀ parent ∈ t.parents, Built p within (ancestry ++ [t.symbol.hop]) parent := by
  cases built with
  | node fresh found above =>
    obtain ⟨mirrors, same⟩ := found_mirrors found
    rw [same, Lineage.symbol_ofParents]
    exact ⟨mirrors, found, above⟩

theorem Built.fresh (built : Built p within ancestry t) : t.Fresh ancestry := by
  induction built with
  | node fresh found above ih =>
    refine .below ?_ ?_
    · rwa [Lineage.symbol_ofParents]
    · rw [Lineage.symbol_ofParents, (found_mirrors found).2]
      exact ih

end Link
end ComponentAtlas
