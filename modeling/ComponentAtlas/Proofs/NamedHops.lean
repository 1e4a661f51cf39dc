import ComponentAtlas.Proofs.SearchRules

namespace ComponentAtlas
open Outline

-- From a name in a file, the paths that named hops lead to. A hop that was passed before ends the
-- way, and so does a declaration, a package or a name that nothing binds.
inductive View.Leads (v : View) (kinds : KindFilter) : List Hop → String → Path → Path → Prop where
  | here : Leads v kinds passed name path path
  | on (shown : v.enter name (.file path) = some x) (fresh : x.hop ∉ passed)
      (absent : x.declaration? kinds = none) (binds : x.binding? = some { name := other, target := .file further })
      (rest : Leads v kinds (x.hop :: passed) other further goal) : Leads v kinds passed name path goal

namespace Search

variable {v : View} {request : Request}

def Escapes (v : View) (kinds : KindFilter) (before : List Hop) (e : ResolveError) : Task → Prop
  | .look name path => ∃ goal, v.Leads kinds before name path goal ∧ v goal = .error e
  | .follow name target _ => ∃ path goal, target = .file path ∧ v.Leads kinds before name path goal ∧ v goal = .error e
  | .expand x => x.declaration? kinds = none ∧ ∃ name path goal,
      x.binding? = some { name, target := .file path } ∧ v.Leads kinds before name path goal ∧ v goal = .error e
  | .scan _ _ => False

theorem escapes_of_searched (searched : Searched v request task before (.error e) after notes)
    (other : e.isSymbolNotFound = false) : Escapes v request.kinds before e task := by
  generalize failed : Except.error e = result at searched
  induction searched with
  | unreadable shown =>
    cases failed
    exact ⟨_, .here, shown⟩
  | repeated | package | exhausted =>
    cases failed
    cases other
  | entered shown fresh rest ih =>
    obtain ⟨absent, name, path, goal, binds, leads, broken⟩ := ih failed
    exact ⟨goal, .on shown fresh absent binds leads, broken⟩
  | declared | hit => cases failed
  | @bound x binding _ _ _ _ absent binds rest ih =>
    obtain ⟨path, goal, target, leads, broken⟩ := ih failed
    obtain ⟨name, _⟩ := binding
    obtain rfl := target
    exact ⟨absent, name, path, goal, binds, leads, broken⟩
  | unbound absent free rest ih => exact (ih failed).elim
  | file rest ih =>
    obtain ⟨goal, leads, broken⟩ := ih failed
    exact ⟨_, goal, rfl, leads, broken⟩
  | miss _ _ _ ih => exact ih failed

theorem searched_of_leads (request : Request) (leads : v.Leads request.kinds before name path goal)
    (broken : v goal = .error e) : ∃ after, Searched v request (.look name path) before (.error e) after [] := by
  induction leads with
  | here => exact ⟨_, .unreadable broken⟩
  | on shown fresh absent binds _ ih =>
    obtain ⟨after, rest⟩ := ih broken
    exact ⟨after, .entered shown fresh (.bound absent binds (.file rest))⟩

end Search

-- A failure other than a missing name is returned exactly when the named hops reach the file that
-- fails with it. What fails below a wildcard never is.
theorem resolve_escapes_iff {σ : Type} {p : Provider σ} {w : Work σ} (consistent : p.Consistent w.state)
    (kinds : KindFilter) (reference : Reference) (e : ResolveError) :
    (e.isSymbolNotFound = false ∧ ∃ w', resolve p kinds reference w = some (.error e, w')) ↔
      ∃ goal, (p.view w.state).Leads kinds [] reference.name reference.file goal ∧
        p.view w.state goal = .error e := by
  constructor
  · rintro ⟨other, w', resolved⟩
    obtain ⟨-, after, notes, searched⟩ := resolve_sound consistent.shows .refl resolved
    exact Search.escapes_of_searched searched other
  · rintro ⟨goal, leads, broken⟩
    obtain ⟨after, searched⟩ := Search.searched_of_leads { kinds, origin := reference } leads broken
    exact ⟨(opened_error broken).not_symbolNotFound, resolve_complete consistent.shows .refl ⟨after, [], searched⟩⟩

def buyer : SourceFile :=
  .ofForms "buyer.ts" [.importFrom { (default : Import) with
    source := "./shop.ts", specifiers := [{ name := "Widget", otherName := some "Part" }] }]

def shop : SourceFile :=
  .ofForms "shop.ts" [.exportNamed [{ name := "Widget", otherName := none, range := default }] (some "./gone.ts")]

theorem resolve_escapes_iff_gone : ∃ w', resolve (.ofFiles [buyer, shop]) .any
    (.of "Part" ⟨"buyer.ts"⟩) (.start ()) = some (.error (.parse (.noSource ⟨"gone.ts"⟩ 1)), w') := by
  let v := (Provider.ofFiles [buyer, shop]).view ()
  have first : v.enter "Part" (.file ⟨"buyer.ts"⟩) = some (.of buyer "Part") :=
    View.enter_ofFiles _ (by decide +kernel) (by decide +kernel)
  have second : v.enter "Widget" (.file ⟨"shop.ts"⟩) = some (.of shop "Widget") :=
    View.enter_ofFiles _ (by decide +kernel) (by decide +kernel)
  have last : (Place.of shop "Widget").binding? = some { name := "Widget", target := .file ⟨"gone.ts"⟩ } := by
    decide +kernel
  have leads : v.Leads .any [] "Part" ⟨"buyer.ts"⟩ ⟨"gone.ts"⟩ :=
    .on first (by simp) (by decide +kernel) (by decide +kernel)
      (.on second (by decide +kernel) (by decide +kernel) last .here)
  have broken : v ⟨"gone.ts"⟩ = .error (.parse (.noSource ⟨"gone.ts"⟩ 1)) :=
    Provider.ofFiles_missing (by decide +kernel)
  exact ((resolve_escapes_iff (w := .start ()) (Provider.ofFiles_consistent _) .any (.of "Part" ⟨"buyer.ts"⟩) _).mpr
    ⟨_, leads, broken⟩).2

end ComponentAtlas
