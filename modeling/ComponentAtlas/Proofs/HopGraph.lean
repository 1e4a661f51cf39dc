import ComponentAtlas.Proofs.SearchRules
import Mathlib.Data.Finset.Card
import Mathlib.Logic.Relation

namespace ComponentAtlas
open Outline

namespace Place

-- Where the name leads from here: to its binding, else to the wildcard targets in order.
def onward (x : Place) : List (String × Target) :=
  match x.binding? with
  | some binding => [(binding.name, binding.target)]
  | none => x.index.wildcards.map (x.name, ·)

end Place

namespace View

def live (v : View) (ways : List (String × Target)) : List Place :=
  ways.filterMap fun (name, target) => v.enter name target

def next (v : View) (kinds : KindFilter) (x : Place) : List Place :=
  match x.declaration? kinds with
  | some _ => []
  | none => v.live x.onward

def Reaches (v : View) (kinds : KindFilter) : Place → Place → Prop :=
  Relation.ReflTransGen fun x y => y ∈ v.next kinds x

variable {v : View} {kinds : KindFilter}

theorem live_cons (name : String) (target : Target) (ways : List (String × Target)) :
    v.live ((name, target) :: ways) = (v.enter name target).toList ++ v.live ways := by
  rw [live, List.filterMap_cons]
  dsimp only
  cases v.enter name target <;> rfl

theorem live_singleton (name : String) (target : Target) : v.live [(name, target)] = (v.enter name target).toList := by
  rw [live_cons]
  exact List.append_nil _

theorem next_declared (here : x.declaration? kinds = some declaration) : v.next kinds x = [] := by
  rw [next, here]

theorem next_onward (absent : x.declaration? kinds = none) : v.next kinds x = v.live x.onward := by
  rw [next, absent]

theorem next_bound (absent : x.declaration? kinds = none) (binds : x.binding? = some binding) :
    v.next kinds x = (v.enter binding.name binding.target).toList := by
  rw [next_onward absent, Place.onward, binds]
  exact live_singleton _ _

theorem next_unbound (absent : x.declaration? kinds = none) (free : x.binding? = none) :
    v.next kinds x = v.live (x.index.wildcards.map (x.name, ·)) := by
  rw [next_onward absent, Place.onward, free]

theorem holds_next (member : y ∈ v.next kinds x) : v.Holds y := by
  unfold next at member
  split at member
  · cases member
  · obtain ⟨_, _, entered⟩ := List.mem_filterMap.mp member
    exact enter_holds entered

-- A hop stands for one node.
theorem Coherent.place_eq (coherent : v.Coherent) (one : v.Holds x) (two : v.Holds y)
    (equal : x.hop = y.hop) : x = y := by
  obtain ⟨file, index, name⟩ := x
  obtain ⟨file', index', name'⟩ := y
  obtain ⟨path, shown⟩ := one
  obtain ⟨path', shown'⟩ := two
  obtain ⟨components, rfl⟩ := (Hop.mk.injEq ..).mp equal
  obtain ⟨rfl, rfl⟩ := coherent.same shown shown' components
  rfl

end View

section

variable {α : Type} [DecidableEq α] {stock : Finset α} {used used' : List α}

-- How much of a finite stock is still unused; what bounds walks that use nothing twice.
def unused (stock : Finset α) (used : List α) : Nat := (stock \ used.toFinset).card

theorem unused_cons_lt (stocked : hop ∈ stock) (fresh : hop ∉ used) :
    unused stock (hop :: used) < unused stock used := by
  unfold unused
  rw [List.toFinset_cons]
  refine Finset.card_lt_card ⟨Finset.sdiff_subset_sdiff (Finset.Subset.refl _) (Finset.subset_insert _ _), ?_⟩
  intro all
  have member := all (Finset.mem_sdiff.mpr ⟨stocked, by simpa using fresh⟩)
  simp at member

theorem unused_le (more : used ⊆ used') : unused stock used' ≤ unused stock used :=
  Finset.card_le_card (Finset.sdiff_subset_sdiff (Finset.Subset.refl _) fun _ member =>
    List.mem_toFinset.mpr (more (List.mem_toFinset.mp member)))

end

-- The first node with a declaration that a depth-first walk through the nodes meets, if there is one.
-- `trail` is the path that the walk stands on.
inductive FirstMatch (v : View) (kinds : KindFilter) : List Hop → List Place → Option Place → Prop where
  | empty : FirstMatch v kinds trail [] none
  | blocked (on : x.hop ∈ trail) (rest : FirstMatch v kinds trail xs found) :
      FirstMatch v kinds trail (x :: xs) found
  | here (off : x.hop ∉ trail) (declared : x.declaration? kinds = some declaration) :
      FirstMatch v kinds trail (x :: xs) (some x)
  | deeper (off : x.hop ∉ trail) (absent : x.declaration? kinds = none)
      (below : FirstMatch v kinds (x.hop :: trail) (v.next kinds x) (some y)) :
      FirstMatch v kinds trail (x :: xs) (some y)
  | barren (off : x.hop ∉ trail) (absent : x.declaration? kinds = none)
      (below : FirstMatch v kinds (x.hop :: trail) (v.next kinds x) none)
      (rest : FirstMatch v kinds trail xs found) : FirstMatch v kinds trail (x :: xs) found

namespace FirstMatch

variable {v : View} {kinds : KindFilter}

theorem unique (one : FirstMatch v kinds trail xs found) (two : FirstMatch v kinds trail xs found') :
    found = found' := by
  induction one generalizing found' with
  | empty => cases two; rfl
  | blocked on _ ih =>
    cases two with
    | blocked _ rest => exact ih rest
    | here off | deeper off | barren off => exact absurd on off
  | here off declared =>
    cases two with
    | blocked on => exact absurd on off
    | here => rfl
    | deeper _ absent | barren _ absent => rw [declared] at absent; cases absent
  | deeper off absent _ ih =>
    cases two with
    | blocked on => exact absurd on off
    | here _ declared => rw [declared] at absent; cases absent
    | deeper _ _ below => exact ih below
    | barren _ _ below => cases ih below
  | barren off absent _ _ ihBelow ihRest =>
    cases two with
    | blocked on => exact absurd on off
    | here _ declared => rw [declared] at absent; cases absent
    | deeper _ _ below => cases ihBelow below
    | barren _ _ _ rest => exact ihRest rest

theorem append_none (one : FirstMatch v kinds trail xs none) (two : FirstMatch v kinds trail ys found) :
    FirstMatch v kinds trail (xs ++ ys) found := by
  generalize equal : (none : Option Place) = nothing at one
  induction one with
  | empty => exact two
  | blocked on _ ih => exact .blocked on (ih two equal)
  | here | deeper => cases equal
  | barren off absent below _ _ ih => exact .barren off absent below (ih two equal)

theorem append_some (one : FirstMatch v kinds trail xs (some x)) : FirstMatch v kinds trail (xs ++ ys) (some x) := by
  generalize equal : some x = found at one
  induction one with
  | empty => cases equal
  | blocked on _ ih => exact .blocked on (ih equal)
  | here off declared => exact .here off declared
  | deeper off absent below => exact .deeper off absent below
  | barren off absent below _ _ ih => exact .barren off absent below (ih equal)

theorem sound (matched : FirstMatch v kinds trail xs (some y)) :
    (∃ x ∈ xs, v.Reaches kinds x y) ∧ (y.declaration? kinds).isSome := by
  generalize equal : some y = found at matched
  induction matched with
  | empty => cases equal
  | blocked _ _ ih | barren _ _ _ _ _ ih =>
    obtain ⟨⟨x, member, reached⟩, declared⟩ := ih equal
    exact ⟨⟨x, List.mem_cons_of_mem _ member, reached⟩, declared⟩
  | here _ declared =>
    cases equal
    exact ⟨⟨_, List.mem_cons_self, .refl⟩, by rw [declared]; rfl⟩
  | deeper _ _ _ ih =>
    obtain ⟨⟨x, member, reached⟩, declared⟩ := ih equal
    exact ⟨⟨_, List.mem_cons_self, .head member reached⟩, declared⟩

theorem holds (matched : FirstMatch v kinds trail xs (some y)) (start : ∀ x ∈ xs, v.Holds x) : v.Holds y := by
  obtain ⟨⟨x, member, reached⟩, -⟩ := matched.sound
  cases reached with
  | refl => exact start _ member
  | tail _ step => exact View.holds_next step

end FirstMatch
end ComponentAtlas
