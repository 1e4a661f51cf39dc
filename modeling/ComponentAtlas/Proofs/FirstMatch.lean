import ComponentAtlas.Proofs.SearchEnds

namespace ComponentAtlas
open Outline

def View.starts (v : View) (reference : Reference) : List Place :=
  (v.enter reference.name (.file reference.file)).toList

theorem View.starts_holds {v : View} (member : x ∈ v.starts reference) : v.Holds x :=
  enter_holds (Option.mem_toList.mp member)

def Place.symbol? (x : Place) (request : Request) : Option Symbol :=
  (x.declaration? request.kinds).map (request.symbol x.name x.file.path)

namespace Search

variable {v : View} {kinds : KindFilter} {request : Request}

-- A node entered before is on the trail or was given up: then it has no declaration, and all its
-- successors were entered too.
structure Settled (v : View) (kinds : KindFilter) (trail seen : List Hop) : Prop where
  entered : trail ⊆ seen
  closed : ∀ x, v.Holds x → x.hop ∈ seen → x.hop ∉ trail →
    x.declaration? kinds = none ∧ ∀ y ∈ v.next kinds x, y.hop ∈ seen

theorem Settled.start : Settled v kinds [] [] :=
  ⟨List.Subset.refl _, fun _ _ present => absurd present List.not_mem_nil⟩

theorem Settled.push (settled : Settled v kinds trail seen) (hop : Hop) :
    Settled v kinds (hop :: trail) (hop :: seen) := by
  refine ⟨List.cons_subset_cons _ settled.entered, ?_⟩
  intro x holds present off
  obtain ⟨new, off⟩ := not_or.mp fun either => off (List.mem_cons.mpr either)
  obtain ⟨absent, closed⟩ := settled.closed x holds ((List.mem_cons.mp present).resolve_left new) off
  exact ⟨absent, fun y member => List.mem_cons_of_mem _ (closed y member)⟩

-- A node whose successors have all been entered can be given up.
theorem Settled.pop (coherent : v.Coherent) (holds : v.Holds x) (absent : x.declaration? kinds = none)
    (settled : Settled v kinds (x.hop :: trail) seen) (all : ∀ y ∈ v.next kinds x, y.hop ∈ seen) :
    Settled v kinds trail seen := by
  refine ⟨List.Subset.trans (List.subset_cons_self _ _) settled.entered, ?_⟩
  intro y holds' present off
  by_cases equal : y.hop = x.hop
  · obtain rfl := coherent.place_eq holds' holds equal
    exact ⟨absent, all⟩
  · exact settled.closed y holds' present fun on => off ((List.mem_cons.mp on).resolve_left equal)

-- The plain walk finds nothing among nodes that were entered before. The walk may have gone on
-- from the trail, so this holds for every longer trail; each step uses up an entered node.
theorem Settled.barren (settled : Settled v kinds trail seen) (longer : trail ⊆ trail')
    (entered : ∀ x ∈ xs, v.Holds x ∧ x.hop ∈ seen) : FirstMatch v kinds trail' xs none := by
  induction measure : unused seen.toFinset trail' using Nat.strongRecOn generalizing trail' xs with
  | _ n ih =>
    induction xs with
    | nil => exact .empty
    | cons x xs ihRest =>
      have rest := ihRest fun y member => entered y (List.mem_cons_of_mem _ member)
      obtain ⟨holds, present⟩ := entered x List.mem_cons_self
      by_cases on : x.hop ∈ trail'
      · exact .blocked on rest
      · obtain ⟨absent, closed⟩ := settled.closed x holds present fun member => on (longer member)
        have fewer : unused seen.toFinset (x.hop :: trail') < n :=
          measure ▸ unused_cons_lt (List.mem_toFinset.mpr present) on
        have below := ih _ fewer (List.Subset.trans longer (List.subset_cons_self _ _))
          (fun y member => ⟨View.holds_next member, closed y member⟩) rfl
        exact .barren on absent below rest

theorem Settled.skipped (settled : Settled v kinds trail seen) (holds : v.Holds x) (present : x.hop ∈ seen) :
    FirstMatch v kinds trail [x] none :=
  settled.barren (List.Subset.refl _) (List.forall_mem_singleton.mpr ⟨holds, present⟩)

-- What a search that starts with some nodes still to try, from a settled state, has to come to.
def Matches (v : View) (request : Request) (trail : List Hop) (xs : List Place) (after : List Hop) :
    Except ResolveError Symbol → Prop
  | .ok symbol => ∃ x, FirstMatch v request.kinds trail xs (some x) ∧ x.symbol? request = some symbol
  | .error _ => FirstMatch v request.kinds trail xs none ∧ Settled v request.kinds trail after ∧
      ∀ x ∈ xs, x.hop ∈ after

def Keeps (v : View) (request : Request) : Task → List Hop → Except ResolveError Symbol → List Hop → Prop
  | .look name path, before, result, after =>
    ∀ trail, Settled v request.kinds trail before →
      Matches v request trail (v.enter name (.file path)).toList after result
  | .follow name target _, before, result, after =>
    ∀ trail, Settled v request.kinds trail before →
      Matches v request trail (v.enter name target).toList after result
  | .scan x targets, before, result, after =>
    ∀ trail, Settled v request.kinds trail before →
      Matches v request trail (v.live (targets.map (x.name, ·))) after result
  | .expand x, before, result, after =>
    (∃ declaration, x.declaration? request.kinds = some declaration ∧
      result = .ok (request.symbol x.name x.file.path declaration)) ∨
    (x.declaration? request.kinds = none ∧ ∀ trail, Settled v request.kinds trail before →
      Matches v request trail (v.next request.kinds x) after result)

theorem keeps_of_searched (coherent : v.Coherent)
    (searched : Searched v request task before result after notes) : Keeps v request task before result after := by
  induction searched with
  | unreadable shown =>
    intro trail settled
    rw [View.enter_unreadable shown]
    exact ⟨.empty, settled, by simp⟩
  | @repeated name path x before shown seen =>
    intro trail settled
    rw [shown]
    exact ⟨settled.skipped (View.enter_holds shown) seen, settled, List.forall_mem_singleton.mpr seen⟩
  | @entered name path x before result after notes shown fresh rest ih =>
    intro trail settled
    rw [shown]
    have off : x.hop ∉ trail := fun on => fresh (settled.entered on)
    rcases ih with ⟨declaration, here, rfl⟩ | ⟨absent, ih⟩
    · exact ⟨x, .here off here, by rw [Place.symbol?, here]; rfl⟩
    · have below := ih _ (settled.push x.hop)
      cases result with
      | ok symbol =>
        obtain ⟨y, found, equal⟩ := below
        exact ⟨y, .deeper off absent found, equal⟩
      | error e =>
        obtain ⟨nothing, settled', all⟩ := below
        refine ⟨.barren off absent nothing .empty, settled'.pop coherent (View.enter_holds shown) absent all, ?_⟩
        exact List.forall_mem_singleton.mpr (settled'.entered List.mem_cons_self)
  | declared here => exact .inl ⟨_, here, rfl⟩
  | bound absent binds rest ih =>
    refine .inr ⟨absent, fun trail settled => ?_⟩
    rw [View.next_bound absent binds]
    exact ih trail settled
  | unbound absent free rest ih =>
    refine .inr ⟨absent, fun trail settled => ?_⟩
    rw [View.next_unbound absent free]
    exact ih trail settled
  | file rest ih => exact ih
  | package => exact fun trail settled => ⟨.empty, settled, by simp [View.enter]⟩
  | exhausted => exact fun trail settled => ⟨.empty, settled, by simp [View.live]⟩
  | @hit x target rest before symbol after notes found ih =>
    intro trail settled
    obtain ⟨y, first, equal⟩ := ih trail settled
    refine ⟨y, ?_, equal⟩
    rw [List.map_cons, View.live_cons]
    exact first.append_some
  | @miss x target rest before e between notes result after notes' failed later ihFailed ihLater =>
    intro trail settled
    obtain ⟨nothing, settled', all⟩ := ihFailed trail settled
    have following := ihLater trail settled'
    rw [List.map_cons, View.live_cons]
    cases result with
    | ok symbol =>
      obtain ⟨y, first, equal⟩ := following
      exact ⟨y, nothing.append_none first, equal⟩
    | error e' =>
      obtain ⟨nothing', settled'', all'⟩ := following
      refine ⟨nothing.append_none nothing', settled'', fun y member => ?_⟩
      rcases List.mem_append.mp member with first | second
      · exact later.subset (all y first)
      · exact all' y second

theorem Settled.unreachable (settled : Settled v kinds [] seen) (holds : v.Holds x) (present : x.hop ∈ seen)
    (reached : v.Reaches kinds x y) : y.declaration? kinds = none := by
  have inside : v.Holds y ∧ y.hop ∈ seen := by
    induction reached with
    | refl => exact ⟨holds, present⟩
    | tail _ step ih =>
      exact ⟨View.holds_next step, (settled.closed _ ih.1 ih.2 List.not_mem_nil).2 _ step⟩
  exact (settled.closed y inside.1 inside.2 List.not_mem_nil).1

end Search

-- A search that succeeds ends in the node that the walk meets first, and returns its declaration.
theorem View.Resolves.first {v : View} (coherent : v.Coherent) (resolves : v.Resolves kinds reference (.ok symbol)) :
    ∃ x declaration, FirstMatch v kinds [] (v.starts reference) (some x) ∧ v.Holds x ∧
      x.declaration? kinds = some declaration ∧
      symbol = ({ kinds, origin := reference } : Request).symbol x.name x.file.path declaration := by
  obtain ⟨after, notes, searched⟩ := resolves
  obtain ⟨x, first, loaded⟩ := Search.keeps_of_searched coherent searched [] .start
  obtain ⟨declaration, here, equal⟩ := Option.map_eq_some_iff.mp loaded
  exact ⟨x, declaration, first, first.holds fun _ => starts_holds, here, equal.symm⟩

-- The search returns what the plain walk meets first, and it returns something exactly when a node
-- with a declaration can be reached.
theorem resolve_first_match {σ : Type} {p : Provider σ} {w : Work σ} (consistent : p.Consistent w.state)
    (finite : p.FiniteFiles w.state) (kinds : KindFilter) (reference : Reference) :
    ∃ result w' outcome, resolve p kinds reference w = some (result, w') ∧
      (∀ found, FirstMatch (p.view w.state) kinds [] ((p.view w.state).starts reference) found ↔
        found = outcome) ∧
      result.toOption = outcome.bind (·.symbol? { kinds, origin := reference }) ∧
      ((∃ symbol, result = .ok symbol) ↔ ∃ start ∈ (p.view w.state).starts reference,
        ∃ x, (p.view w.state).Reaches kinds start x ∧ (x.declaration? kinds).isSome) := by
  obtain ⟨result, resolves⟩ := View.resolves_total consistent.coherent finite.places_finite kinds reference
  obtain ⟨w', resolved⟩ := resolve_complete consistent.shows .refl resolves
  obtain ⟨after, notes, searched⟩ := resolves
  have kept := Search.keeps_of_searched consistent.coherent searched [] .start
  cases result with
  | ok symbol =>
    obtain ⟨x, first, equal⟩ := kept
    obtain ⟨⟨start, member, reached⟩, declared⟩ := first.sound
    refine ⟨.ok symbol, w', some x, resolved, fun found => ⟨(·.unique first), fun h => h ▸ first⟩, equal.symm, ?_⟩
    exact ⟨fun _ => ⟨start, member, x, reached, declared⟩, fun _ => ⟨symbol, rfl⟩⟩
  | error e =>
    obtain ⟨nothing, settled, all⟩ := kept
    refine ⟨.error e, w', none, resolved, fun found => ⟨(·.unique nothing), fun h => h ▸ nothing⟩, rfl, ?_⟩
    constructor
    · rintro ⟨symbol, absurd⟩
      cases absurd
    · rintro ⟨start, member, x, reached, declared⟩
      rw [settled.unreachable (View.starts_holds member) (all start member) reached] at declared
      cases declared

def widget : Declaration := .classDecl { (default : ClassDeclaration) with name := "Widget" }

-- Two files that forward everything to each other; the second has a class.
def barrel : SourceFile := .ofForms "a.ts" [.exportAll "./b.ts"]

def stocked : SourceFile := .ofForms "b.ts" [.exportAll "./a.ts", .declaration .named widget]

theorem resolve_first_match_barrels : ∃ symbol w', resolve (.ofFiles [barrel, stocked]) .classes
    (.of "Widget" ⟨"a.ts"⟩) (.start ()) = some (.ok symbol, w') := by
  obtain ⟨result, w', outcome, resolved, -, -, found⟩ := resolve_first_match
    (w := .start ()) (Provider.ofFiles_consistent [barrel, stocked]) (Provider.ofFiles_finite _)
    .classes (.of "Widget" ⟨"a.ts"⟩)
  let v := (Provider.ofFiles [barrel, stocked]).view ()
  have start : v.enter "Widget" (.file ⟨"a.ts"⟩) = some (.of barrel "Widget") :=
    View.enter_ofFiles _ (by decide +kernel) (by decide +kernel)
  have next : v.enter "Widget" (.file ⟨"b.ts"⟩) = some (.of stocked "Widget") :=
    View.enter_ofFiles _ (by decide +kernel) (by decide +kernel)
  have step : Place.of stocked "Widget" ∈ v.next .classes (.of barrel "Widget") := by
    rw [View.next_unbound (by decide +kernel) (by decide +kernel)]
    exact List.mem_filterMap.mpr ⟨("Widget", .file ⟨"b.ts"⟩), by decide +kernel, next⟩
  obtain ⟨symbol, rfl⟩ := found.mpr
    ⟨_, Option.mem_toList.mpr start, _, .single step, by decide +kernel⟩
  exact ⟨symbol, w', resolved⟩

end ComponentAtlas
