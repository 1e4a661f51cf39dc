import ComponentAtlas.Proofs.BoundedRuns
import ComponentAtlas.Proofs.FirstMatch
import ComponentAtlas.Proofs.LibraryMemo

namespace ComponentAtlas
open Outline

-- What two searches for one declaration come to: the declaration, where it stands and what it is called there, or
-- failures of one code.
def Alike : Except ResolveError Symbol → Except ResolveError Symbol → Prop :=
  Agrees (fun e e' => e.code = e'.code) fun s s' =>
    s.declaration = s'.declaration ∧ s.file = s'.file ∧ s.name = s'.name

namespace Alike

theorem refl (result : Except ResolveError Symbol) : Alike result result := by
  cases result with
  | ok symbol => exact .ok ⟨rfl, rfl, rfl⟩
  | error e => exact .error rfl

theorem trans (one : Alike result middle) (two : Alike middle result') : Alike result result' := by
  cases one with
  | ok first =>
    cases two with
    | ok second => exact .ok ⟨first.1.trans second.1, first.2.1.trans second.2.1, first.2.2.trans second.2.2⟩
  | error first =>
    cases two with
    | error second => exact .error (first.trans second)

end Alike

namespace View

-- A name in a file that declares nothing under it stands for a name in another file: it is imported, or else
-- re-exported, from a target that is answered as that file is.
def PassesOn (v : View) (kinds : KindFilter) (here there : Reference) : Prop :=
  ∃ x target, v.enter here.name (.file here.file) = some x ∧ x.declaration? kinds = none ∧
    x.binding? = some { name := there.name, target := .file target } ∧ v target = v there.file

end View

namespace Search

variable {v : View} {kinds : KindFilter} {origin origin' : Reference} {x y : Place}

theorem Searched.respelled (equal : v path = v path')
    (searched : Searched v request (.look name path) before result after notes) :
    Searched v request (.look name path') before result after notes := by
  have enters : v.enter name (.file path) = v.enter name (.file path') := by rw [View.enter, View.enter, equal]
  cases searched with
  | unreadable shown => exact .unreadable (equal ▸ shown)
  | repeated shown seen => exact .repeated (enters ▸ shown) seen
  | entered shown fresh rest => exact .entered (enters ▸ shown) fresh rest

-- A search that comes to `x` after `y`, where `x` only passes a name on to `y`, turns back at `y`.
theorem Searched.turns (absent : x.declaration? kinds = none) (binds : x.binding? = some { name, target := .file target })
    (leads : v.enter name (.file target) = some y) (passed : y.hop ∈ before)
    (searched : Searched v { kinds, origin } (.expand x) before result after notes) :
    after = before ∧ result = .error (.symbolNotFound name y.file.path) := by
  cases searched with
  | declared here =>
    rw [absent] at here
    cases here
  | unbound _ free =>
    rw [binds] at free
    cases free
  | bound _ binds' rest =>
    rw [binds] at binds'
    cases binds'
    cases rest with
    | file rest =>
      cases rest with
      | unreadable shown =>
        rw [View.enter_unreadable shown] at leads
        cases leads
      | repeated shown seen =>
        rw [leads] at shown
        cases shown
        exact ⟨rfl, rfl⟩
      | entered shown fresh =>
        rw [leads] at shown
        cases shown
        exact absurd passed fresh

-- Once `y` is entered, it makes no difference whether `x` is: a search that enters it turns back behind it, and one that
-- has entered it turns back in front of it.
theorem Searched.detour (coherent : v.Coherent) (holds : v.Holds x) (absent : x.declaration? kinds = none)
    (binds : x.binding? = some { name, target := .file target }) (leads : v.enter name (.file target) = some y)
    (origin' : Reference) (searched : Searched v { kinds, origin } task before result after notes)
    (passed : y.hop ∈ before) (more : ∀ hop, hop ∈ before' ↔ hop = x.hop ∨ hop ∈ before) :
    ∃ result' after' notes', Searched v { kinds, origin := origin' } task before' result' after' notes' ∧
      Alike result result' ∧ ∀ hop, hop ∈ after' ↔ hop = x.hop ∨ hop ∈ after := by
  generalize request : ({ kinds, origin } : Request) = given at searched
  induction searched generalizing before' with
  | unreadable shown => exact ⟨_, _, _, .unreadable shown, .refl _, more⟩
  | repeated shown seen => exact ⟨_, _, _, .repeated shown ((more _).mpr (.inr seen)), .refl _, more⟩
  | @entered _ _ z before result after _ shown fresh rest ih =>
    by_cases back : z.hop = x.hop
    · obtain rfl := coherent.place_eq (View.enter_holds shown) holds back
      subst request
      obtain ⟨rfl, rfl⟩ := rest.turns absent binds leads (List.mem_cons_of_mem _ passed)
      refine ⟨_, _, _, .repeated shown ((more _).mpr (.inl rfl)), .error rfl, fun hop => ?_⟩
      rw [more, List.mem_cons, ← or_assoc, or_self]
    · have fresh' : z.hop ∉ before' := fun member => ((more _).mp member).elim back fresh
      have more' : ∀ hop, hop ∈ z.hop :: before' ↔ hop = x.hop ∨ hop ∈ z.hop :: before := by
        intro hop
        rw [List.mem_cons, List.mem_cons, more, or_left_comm]
      obtain ⟨_, _, _, rest', alike, all⟩ := ih (List.mem_cons_of_mem _ passed) more'
      exact ⟨_, _, _, .entered shown fresh' rest', alike, all⟩
  | declared here =>
    subst request
    exact ⟨_, _, _, .declared here, .ok ⟨rfl, rfl, rfl⟩, more⟩
  | bound none binds' _ ih =>
    obtain ⟨_, _, _, rest, alike, all⟩ := ih passed more
    subst request
    exact ⟨_, _, _, .bound none binds' rest, alike, all⟩
  | unbound none free _ ih =>
    obtain ⟨_, _, _, rest, alike, all⟩ := ih passed more
    subst request
    exact ⟨_, _, _, .unbound none free rest, alike, all⟩
  | file _ ih =>
    obtain ⟨_, _, _, rest, alike, all⟩ := ih passed more
    exact ⟨_, _, _, .file rest, alike, all⟩
  | package => exact ⟨_, _, _, .package, .refl _, more⟩
  | exhausted => exact ⟨_, _, _, .exhausted, .refl _, more⟩
  | hit _ ih =>
    obtain ⟨_, _, _, found, alike, all⟩ := ih passed more
    cases alike with
    | ok both => exact ⟨_, _, _, .hit found, .ok both, all⟩
  | miss failed _ ihFailed ihLater =>
    obtain ⟨_, _, _, failed', alike, between⟩ := ihFailed passed more
    obtain ⟨_, _, _, later, alike', all⟩ := ihLater (failed.subset passed) between
    cases alike with
    | error => exact ⟨_, _, _, .miss failed' later, alike', all⟩

end Search

section

variable {σ : Type} {p : Provider σ} {v : View} {kinds : KindFilter} {here there start goal : Reference}

theorem View.PassesOn.alike (shows : p.Shows within v) (known : within state) (coherent : v.Coherent)
    (step : v.PassesOn kinds here there) (one : v.Resolves kinds here result) (two : v.Resolves kinds there result') :
    Alike result' result := by
  obtain ⟨x, target, shown, absent, binds, equal⟩ := step
  obtain ⟨after, notes, searched⟩ := two
  -- What the second search comes to, the first one comes to behind its first hop.
  have ahead : ∃ result'' after'' notes'', Alike result' result'' ∧
      Search.Searched v { kinds, origin := here } (.expand x) [x.hop] result'' after'' notes'' := by
    cases searched.respelled equal.symm with
    | unreadable broken => exact ⟨_, _, _, .refl _, .bound absent binds (.file (.unreadable broken))⟩
    | repeated _ seen => cases seen
    | @entered _ _ y _ _ _ _ leads _ rest =>
      by_cases loop : y.hop = x.hop
      · obtain rfl := coherent.place_eq (View.enter_holds leads) (View.enter_holds shown) loop
        have more : ∀ hop, hop ∈ [y.hop] ↔ hop = y.hop ∨ hop ∈ [y.hop] := by simp
        obtain ⟨_, _, _, rest', alike, -⟩ := rest.detour coherent (View.enter_holds shown) absent binds leads here
          List.mem_cons_self more
        exact ⟨_, _, _, alike, rest'⟩
      · have more : ∀ hop, hop ∈ [y.hop, x.hop] ↔ hop = x.hop ∨ hop ∈ [y.hop] := by simp [or_comm]
        obtain ⟨_, _, _, rest', alike, -⟩ := rest.detour coherent (View.enter_holds shown) absent binds leads here
          List.mem_cons_self more
        exact ⟨_, _, _, alike, .bound absent binds (.file (.entered leads (by simpa using loop) rest'))⟩
  obtain ⟨result'', after'', notes'', alike, rest⟩ := ahead
  have first : v.Resolves kinds here result'' := ⟨after'', notes'', .entered shown List.not_mem_nil rest⟩
  rwa [one.unique shows known first]

theorem View.Resolves.forwarded (shows : p.Shows within v) (known : within state) (coherent : v.Coherent)
    (finite : v.places.Finite) (chain : Relation.ReflTransGen (v.PassesOn kinds) start goal)
    (one : v.Resolves kinds start result) (two : v.Resolves kinds goal result') : Alike result' result := by
  induction chain generalizing result' with
  | refl =>
    rw [one.unique shows known two]
    exact .refl _
  | @tail middle goal _ step ih =>
    obtain ⟨between, resolves⟩ := View.resolves_total coherent finite kinds middle
    exact (step.alike shows known coherent resolves two).trans (ih resolves)

end

-- However many imports and re-exports a name is passed on through, the search from the first file ends, and so does the
-- search from the last; they find the same declaration under the same name in the same file, or both fail with one code.
theorem resolve_forwarded {σ : Type} {p : Provider σ} {w later : Work σ} (consistent : p.Consistent w.state)
    (finite : p.FiniteFiles w.state) (reached : p.Reaches w.state later.state) {kinds : KindFilter}
    {start goal : Reference} (chain : Relation.ReflTransGen ((p.view w.state).PassesOn kinds) start goal) :
    ∃ result w' result' w'', resolve p kinds start w = some (result, w') ∧
      resolve p kinds goal later = some (result', w'') ∧ Alike result' result := by
  obtain ⟨result, one⟩ := View.resolves_total consistent.coherent finite.places_finite kinds start
  obtain ⟨result', two⟩ := View.resolves_total consistent.coherent finite.places_finite kinds goal
  obtain ⟨w', resolved⟩ := resolve_complete (w := w) consistent.shows .refl one
  obtain ⟨w'', resolved'⟩ := resolve_complete (w := later) consistent.shows reached two
  exact ⟨result, w', result', w'', resolved, resolved',
    one.forwarded consistent.shows .refl consistent.coherent finite.places_finite chain two⟩

-- A name that is passed on twice, to a file that forwards the first one before the file with the class.
def widgetOrder : SourceFile :=
  .ofForms "a.ts" [.importFrom { (default : Import) with
    source := "./b.ts", specifiers := [{ name := "Widget", otherName := none }] }]

def widgetRelay : SourceFile :=
  .ofForms "b.ts" [.exportNamed [{ name := "Widget", otherName := none, range := default }] (some "./c.ts")]

def widgetCircle : SourceFile := .ofForms "c.ts" [.exportAll "./a.ts", .exportAll "./d.ts"]

def widgetDepot : SourceFile := .ofForms "d.ts" [.declaration .named widget]

def widgetTrade : List SourceFile := [widgetOrder, widgetRelay, widgetCircle, widgetDepot]

theorem resolve_forwarded_circle : ∃ symbol w' symbol' w'',
    resolve (.ofFiles widgetTrade) .classes (.of "Widget" ⟨"a.ts"⟩) (.start ()) = some (.ok symbol, w') ∧
      resolve (.ofFiles widgetTrade) .classes (.of "Widget" ⟨"c.ts"⟩) (.start ()) = some (.ok symbol', w'') ∧
      symbol.file = ⟨"d.ts"⟩ ∧ symbol'.declaration = symbol.declaration ∧ symbol'.file = symbol.file := by
  let p := Provider.ofFiles widgetTrade
  have first : (p.view ()).PassesOn .classes (.of "Widget" ⟨"a.ts"⟩) (.of "Widget" ⟨"b.ts"⟩) :=
    ⟨.of widgetOrder "Widget", ⟨"b.ts"⟩, View.enter_ofFiles _ (by decide +kernel) (by decide +kernel), by decide +kernel,
      by decide +kernel, rfl⟩
  have second : (p.view ()).PassesOn .classes (.of "Widget" ⟨"b.ts"⟩) (.of "Widget" ⟨"c.ts"⟩) :=
    ⟨.of widgetRelay "Widget", ⟨"c.ts"⟩, View.enter_ofFiles _ (by decide +kernel) (by decide +kernel), by decide +kernel,
      by decide +kernel, rfl⟩
  have reached : p.Reaches (Work.start ()).state (Work.start ()).state := .refl
  obtain ⟨result, w', result', w'', resolved, resolved', alike⟩ := resolve_forwarded (Provider.ofFiles_consistent _)
    (Provider.ofFiles_finite _) reached (.tail (.single first) second)
  have found : (resolveWithin 20 p .classes (.of "Widget" ⟨"a.ts"⟩) (.start ())).map (·.1.toOption.map (·.file)) =
      some (some ⟨"d.ts"⟩) := by decide +kernel
  obtain ⟨r, ended, there⟩ := Option.map_eq_some_iff.mp found
  have same := resolved.symm.trans (resolveWithin_completes _ _ _ _ _ r ended)
  cases same
  cases alike with
  | error => cases there
  | ok both => exact ⟨_, w', _, w'', resolved, resolved', Option.some.inj there, both.1, both.2.1⟩

end ComponentAtlas
