import ComponentAtlas.Proofs.HopGraph
import Mathlib.Data.Set.Finite.Lattice
import Mathlib.Data.Set.Finite.List
import Mathlib.Data.Finite.Prod

namespace ComponentAtlas
open Outline

theorem Ordered.mem_of_get? {α : Type} {m : Ordered α} {value : α} (got : m.get? key = some value) :
    (key, value) ∈ m.entries := by
  obtain ⟨before, after, equal, -⟩ := List.lookup_eq_some_iff.mp got
  rw [equal]
  simp

namespace View

variable {v : View}

def names (v : View) (name : String) : Set String :=
  {other | other = name ∨ ∃ x binding, v.Holds x ∧ x.binding? = some binding ∧ binding.name = other}

def hops (v : View) (name : String) : Set Hop :=
  {hop | hop.file ∈ v.places ∧ hop.name ∈ v.names name}

theorem Holds.place (holds : v.Holds x) : x.file.path.components ∈ v.places := by
  obtain ⟨path, shown⟩ := holds
  exact ⟨path, x.file, x.index, shown, rfl⟩

theorem names_finite (coherent : v.Coherent) (finite : v.places.Finite) (name : String) : (v.names name).Finite := by
  -- Files in one place have one index, so each place contributes the names of finitely many bindings.
  have boundNames : (⋃ place ∈ v.places, {other | ∃ x binding, v.Holds x ∧
      x.file.path.components = place ∧ x.binding? = some binding ∧ binding.name = other}).Finite := by
    refine finite.biUnion fun place member => ?_
    obtain ⟨path, file, index, shown, here⟩ := member
    refine (List.finite_toSet ((index.imports.entries ++ index.reexports.entries).map (·.2.name))).subset ?_
    rintro other ⟨x, binding, ⟨path', shown'⟩, there, binds, rfl⟩
    obtain ⟨-, equal⟩ := coherent.same shown shown' (here.trans there.symm)
    rw [Place.binding?, ← equal] at binds
    rcases Option.or_eq_some_iff.mp binds with imported | ⟨-, reexported⟩
    · exact List.mem_map.mpr ⟨_, List.mem_append_left _ (Ordered.mem_of_get? imported), rfl⟩
    · exact List.mem_map.mpr ⟨_, List.mem_append_right _ (Ordered.mem_of_get? reexported), rfl⟩
  refine (boundNames.insert name).subset ?_
  rintro other (rfl | ⟨x, binding, holds, binds, named⟩)
  · exact Set.mem_insert _ _
  · exact Set.mem_insert_of_mem _ (Set.mem_biUnion holds.place ⟨x, binding, holds, rfl, binds, named⟩)

theorem hops_finite (coherent : v.Coherent) (finite : v.places.Finite) (name : String) : (v.hops name).Finite := by
  refine ((finite.prod (names_finite coherent finite name)).image fun pair => Hop.mk pair.1 pair.2).subset ?_
  rintro ⟨file, other⟩ ⟨place, asked⟩
  exact ⟨(file, other), ⟨place, asked⟩, rfl⟩

end View

namespace Search

variable {v : View} {request : Request}

def Ends (v : View) (request : Request) (task : Task) (before : List Hop) : Prop :=
  ∃ result after notes, Searched v request task before result after notes

theorem follow_ends (target : Target) (referrer : Path)
    (looks : ∀ path, Ends v request (.look name path) before) :
    Ends v request (.follow name target referrer) before := by
  cases target with
  | package => exact ⟨_, _, _, .package⟩
  | file path =>
    obtain ⟨result, after, notes, searched⟩ := looks path
    exact ⟨result, after, notes, .file searched⟩

theorem scan_ends (looks : ∀ later, before ⊆ later → ∀ path, Ends v request (.look x.name path) later) :
    Ends v request (.scan x targets) before := by
  induction targets generalizing before with
  | nil => exact ⟨_, _, _, .exhausted⟩
  | cons target rest ih =>
    obtain ⟨result, between, notes, first⟩ := follow_ends target x.file.path
      (looks before (List.Subset.refl _))
    cases result with
    | ok symbol => exact ⟨_, _, _, .hit first⟩
    | error e =>
      obtain ⟨result, after, notes', later⟩ := ih fun later more =>
        looks later (List.Subset.trans first.subset more)
      exact ⟨_, _, _, .miss first later⟩

theorem expand_ends (holds : v.Holds x) (asked : x.name ∈ v.names name)
    (looks : ∀ other ∈ v.names name, ∀ later, before ⊆ later → ∀ path, Ends v request (.look other path) later) :
    Ends v request (.expand x) before := by
  cases here : x.declaration? request.kinds with
  | some declaration => exact ⟨_, _, _, .declared here⟩
  | none =>
    cases binds : x.binding? with
    | some binding =>
      have asked' : binding.name ∈ v.names name := .inr ⟨x, binding, holds, binds, rfl⟩
      obtain ⟨result, after, notes, rest⟩ := follow_ends binding.target x.file.path
        (looks _ asked' before (List.Subset.refl _))
      exact ⟨_, _, _, .bound here binds rest⟩
    | none =>
      obtain ⟨result, after, notes, rest⟩ := scan_ends (looks _ asked)
      exact ⟨_, _, _, .unbound here binds rest⟩

theorem look_ends (request : Request) (finite : (v.hops name).Finite) (asked : other ∈ v.names name)
    (path : Path) (before : List Hop) :
    Ends v request (.look other path) before := by
  induction measure : unused finite.toFinset before using Nat.strongRecOn generalizing other path before with
  | _ n ih =>
    cases shown : v path with
    | error e => exact ⟨_, _, _, .unreadable shown⟩
    | ok answer =>
      have entered := View.enter_file other shown
      have holds := View.enter_holds entered
      by_cases seen : (Place.mk answer.1 answer.2 other).hop ∈ before
      · exact ⟨_, _, _, .repeated entered seen⟩
      · have fewer := unused_cons_lt (finite.mem_toFinset.mpr ⟨holds.place, asked⟩) seen
        obtain ⟨result, after, notes, rest⟩ := expand_ends holds asked fun next asked' later more path' =>
          ih _ (measure ▸ Nat.lt_of_le_of_lt (unused_le more) fewer) asked' path' later rfl
        exact ⟨_, _, _, .entered entered seen rest⟩

end Search

theorem View.resolves_total {v : View} (coherent : v.Coherent) (finite : v.places.Finite)
    (kinds : KindFilter) (reference : Reference) : ∃ result, v.Resolves kinds reference result := by
  obtain ⟨result, after, notes, searched⟩ := Search.look_ends { kinds, origin := reference }
    (View.hops_finite coherent finite reference.name) (.inl rfl) reference.file []
  exact ⟨result, after, notes, searched⟩

end ComponentAtlas
