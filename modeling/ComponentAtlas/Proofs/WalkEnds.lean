import ComponentAtlas.Proofs.FirstMatch

namespace ComponentAtlas
open Outline

namespace Search

variable {v : View} {request : Request}

-- Following pairs of name and target in order, up to the first that is found, comes to an end.
def EndsAll (v : View) (request : Request) (referrer : Path) : List (String × Target) → List Hop → Prop
  | [], _ => True
  | (name, target) :: rest, before =>
    ∃ result after notes, Searched v request (.follow name target referrer) before result after notes ∧
      ∀ e, result = .error e → EndsAll v request referrer rest after

theorem scan_of_endsAll (ends : EndsAll v request x.file.path (targets.map (x.name, ·)) before) :
    Ends v request (.scan x targets) before := by
  induction targets generalizing before with
  | nil => exact ⟨_, _, _, .exhausted⟩
  | cons target rest ih =>
    obtain ⟨result, between, notes, first, more⟩ := ends
    cases result with
    | ok symbol => exact ⟨_, _, _, .hit first⟩
    | error e =>
      obtain ⟨result, after, notes', later⟩ := ih (more e rfl)
      exact ⟨_, _, _, .miss first later⟩

theorem expand_of_endsAll (absent : x.declaration? request.kinds = none)
    (ends : EndsAll v request x.file.path x.onward before) : Ends v request (.expand x) before := by
  unfold Place.onward at ends
  cases binds : x.binding? with
  | some binding =>
    rw [binds] at ends
    obtain ⟨result, after, notes, followed, -⟩ := ends
    exact ⟨_, _, _, .bound absent binds followed⟩
  | none =>
    rw [binds] at ends
    obtain ⟨result, after, notes, scanned⟩ := scan_of_endsAll ends
    exact ⟨_, _, _, .unbound absent binds scanned⟩

theorem follow_of_endsAll (entered : v.enter name target = some x)
    (below : x.hop ∉ before → x.declaration? request.kinds = none →
      EndsAll v request x.file.path x.onward (x.hop :: before)) :
    Ends v request (.follow name target referrer) before := by
  cases target with
  | package => cases entered
  | file path =>
    by_cases seen : x.hop ∈ before
    · exact ⟨_, _, _, .file (.repeated entered seen)⟩
    · cases here : x.declaration? request.kinds with
      | some declaration => exact ⟨_, _, _, .file (.entered entered seen (.declared here))⟩
      | none =>
        obtain ⟨result, after, notes, expanded⟩ := expand_of_endsAll here (below seen here)
        exact ⟨_, _, _, .file (.entered entered seen expanded)⟩

theorem follow_dead (dead : v.enter name target = none) (referrer : Path) (before : List Hop) :
    ∃ e notes, Searched v request (.follow name target referrer) before (.error e) before notes := by
  cases target with
  | package => exact ⟨_, _, .package⟩
  | file path =>
    cases shown : v path with
    | error e => exact ⟨_, _, .file (.unreadable shown)⟩
    | ok answer =>
      rw [View.enter_file name shown] at dead
      cases dead

theorem endsAll_dead (none : v.live ways = []) (before : List Hop) : EndsAll v request referrer ways before := by
  induction ways with
  | nil => trivial
  | cons way rest ih =>
    obtain ⟨name, target⟩ := way
    obtain ⟨dead, none⟩ := List.filterMap_eq_nil_iff.mp none |> List.forall_mem_cons.mp
    obtain ⟨e, notes, followed⟩ := follow_dead dead referrer before
    exact ⟨_, _, _, followed, fun _ _ => ih (List.filterMap_eq_nil_iff.mpr none)⟩

theorem endsAll_first (coherent : v.Coherent) (settled : Settled v request.kinds trail before)
    (matched : FirstMatch v request.kinds trail [x] found) (same : v.live ways = x :: xs)
    (below : x.hop ∉ before → x.declaration? request.kinds = none →
      EndsAll v request x.file.path x.onward (x.hop :: before))
    (more : found = none → ∀ after rest, Settled v request.kinds trail after → v.live rest = xs →
      EndsAll v request referrer rest after) :
    EndsAll v request referrer ways before := by
  induction ways with
  | nil => cases same
  | cons way rest ih =>
    obtain ⟨name, target⟩ := way
    rw [View.live_cons] at same
    cases entered : v.enter name target with
    | none =>
      rw [entered] at same
      obtain ⟨e, notes, followed⟩ := follow_dead entered referrer before
      exact ⟨_, _, _, followed, fun _ _ => ih same⟩
    | some y =>
      rw [entered] at same
      obtain ⟨rfl, behind⟩ := List.cons_eq_cons.mp same
      obtain ⟨result, after, notes, followed⟩ := follow_of_endsAll entered below
      refine ⟨result, after, notes, followed, ?_⟩
      rintro e rfl
      obtain ⟨nothing, settled', -⟩ := keeps_of_searched coherent followed trail settled
      rw [entered] at nothing
      exact more (matched.unique nothing) after rest settled' behind

-- By induction on the walk. What the search has entered beyond the trail of the walk is settled, so a
-- node that it skips is one that the walk leaves without a find.
theorem endsAll_of_firstMatch (coherent : v.Coherent) (request : Request)
    (matched : FirstMatch v request.kinds trail xs found) (settled : Settled v request.kinds trail before)
    (referrer : Path) (same : v.live ways = xs) : EndsAll v request referrer ways before := by
  induction matched generalizing before referrer ways with
  | empty => exact endsAll_dead same before
  | blocked on _ ih =>
    refine endsAll_first coherent settled (.blocked on .empty) same ?_ ?_
    · exact fun fresh => absurd (settled.entered on) fresh
    · exact fun _ after rest settled' same' => ih settled' referrer same'
  | here off declared =>
    refine endsAll_first coherent settled (.here off declared) same ?_ (by rintro ⟨⟩)
    intro _ absent
    rw [declared] at absent
    cases absent
  | deeper off absent below ih =>
    refine endsAll_first coherent settled (.deeper off absent below) same ?_ (by rintro ⟨⟩)
    exact fun _ _ => ih (settled.push _) _ (View.next_onward absent).symm
  | barren off absent below _ ihBelow ihRest =>
    refine endsAll_first coherent settled (.barren off absent below .empty) same ?_ ?_
    · exact fun _ _ => ihBelow (settled.push _) _ (View.next_onward absent).symm
    · exact fun _ after rest settled' same' => ihRest settled' referrer same'

end Search

namespace View

variable {v : View}

-- A reference resolves to a symbol exactly when the walk ends in the node of that symbol.
theorem resolves_ok_iff (coherent : v.Coherent) : v.Resolves kinds reference (.ok symbol) ↔
    ∃ x, FirstMatch v kinds [] (v.starts reference) (some x) ∧
      x.symbol? { kinds, origin := reference } = some symbol := by
  constructor
  · rintro ⟨after, notes, searched⟩
    exact Search.keeps_of_searched coherent searched [] .start
  · rintro ⟨x, matched, loaded⟩
    have same : v.live [(reference.name, .file reference.file)] = v.starts reference := live_singleton _ _
    obtain ⟨result, after, notes, followed, -⟩ := Search.endsAll_of_firstMatch coherent
      { kinds, origin := reference } matched .start reference.file same
    cases followed with
    | file searched =>
      have kept := Search.keeps_of_searched coherent searched [] .start
      cases result with
      | ok symbol' =>
        obtain ⟨x', matched', loaded'⟩ := kept
        cases matched.unique matched'
        rw [loaded] at loaded'
        cases loaded'
        exact ⟨after, notes, searched⟩
      | error e => cases matched.unique kept.1

end View
end ComponentAtlas
