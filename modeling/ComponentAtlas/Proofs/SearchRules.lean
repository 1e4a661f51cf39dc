import ComponentAtlas.Proofs.View
import ComponentAtlas.Resolve.Lookup

namespace ComponentAtlas
open Outline

-- What a declaration found in a file can be, and where it stands.
theorem Index.local?_cases {index : Index} (here : index.local? kinds name = some declaration) :
    (∃ d, declaration = .classDecl d ∧
      (index.exportedClasses.get? name).or (index.declaredClasses.get? name) = some d) ∨
    (∃ d, declaration = .interfaceDecl d ∧ kinds.interfaces = true ∧
      (index.exportedClasses.get? name).or (index.declaredClasses.get? name) = none ∧
      (index.exportedInterfaces.get? name).or (index.declaredInterfaces.get? name) = some d) ∨
    kinds.types = true ∧ ((∃ d, declaration = .aliasDecl d ∧
        (index.exportedAliases.get? name).or (index.declaredAliases.get? name) = some d) ∨
      ∃ d, declaration = .enumDecl d ∧
        (index.exportedEnums.get? name).or (index.declaredEnums.get? name) = some d) := by
  unfold Index.local? at here
  dsimp only at here
  split at here
  · rename_i d found
    cases here
    exact .inl ⟨d, rfl, found⟩
  · rename_i noClass
    split at here
    · rename_i d found
      cases here
      split at found
      · rename_i interfaces
        exact .inr (.inl ⟨d, rfl, interfaces, noClass, found⟩)
      · cases found
    · split at here
      · rename_i types
        refine .inr (.inr ⟨types, ?_⟩)
        split at here
        · rename_i d found
          cases here
          exact .inl ⟨d, rfl, found⟩
        · obtain ⟨d, found, rfl⟩ := Option.map_eq_some_iff.mp here
          exact .inr ⟨d, rfl, found⟩
      · cases here

theorem Index.class_of_local? {index : Index} (here : index.local? .classes name = some declaration) :
    ∃ d, declaration = .classDecl d := by
  obtain ⟨d, rfl, -⟩ | ⟨d, -, interfaces, -⟩ | ⟨types, -⟩ := local?_cases here
  · exact ⟨d, rfl⟩
  · cases interfaces
  · cases types

structure Place where
  file : SourceFile
  index : Index
  name : String

namespace Place

def of (file : SourceFile) (name : String) : Place := { file, index := .ofStatements file, name }

def hop (x : Place) : Hop := .of x.file.path x.name

def declaration? (kinds : KindFilter) (x : Place) : Option Declaration := x.index.local? kinds x.name

def binding? (x : Place) : Option Binding := (x.index.imports.get? x.name).or (x.index.reexports.get? x.name)

end Place

namespace View

-- Packages and files that cannot be opened are dead ends.
def enter (v : View) (name : String) : Target → Option Place
  | .package _ => none
  | .file path =>
    match v path with
    | .error _ => none
    | .ok (file, index) => some { file, index, name }

def Holds (v : View) (x : Place) : Prop := ∃ path, v path = .ok (x.file, x.index)

variable {v : View}

theorem enter_file (name : String) (shown : v path = .ok (file, index)) :
    v.enter name (.file path) = some { file, index, name } := by
  rw [enter, shown]

theorem enter_unreadable (shown : v path = .error e) : v.enter name (.file path) = none := by
  rw [enter, shown]

theorem enter_eq (entered : v.enter name (.file path) = some x) : v path = .ok (x.file, x.index) ∧ x.name = name := by
  cases shown : v path with
  | error e => rw [enter_unreadable shown] at entered; cases entered
  | ok answer =>
    rw [enter_file name shown] at entered
    cases entered
    exact ⟨rfl, rfl⟩

theorem enter_holds (entered : v.enter name target = some x) : v.Holds x := by
  cases target with
  | package => cases entered
  | file path => exact ⟨path, (enter_eq entered).1⟩

theorem enter_ofFiles (name : String) (found : files.find? (fun file => file.path.Same path) = some file)
    (named : file.statements.find? Index.isAnonymous = none) :
    ((Provider.ofFiles files).view state).enter name (.file path) = some (.of file name) :=
  enter_file name (Provider.ofFiles_view found named)

end View

def Diagnostic.bare (kind : DiagnosticKind) (path : Path) (message : String) : Diagnostic :=
  { kind, path, range := none, message }

namespace Search

variable {σ : Type} {p : Provider σ} {request : Request} {v : View}

def passedOver (name : String) (referrer : Path) (e : ResolveError) : Diagnostic :=
  .bare .suppressedWildcardTarget referrer s!"wildcard target did not provide '{name}': {e.message}"

def unfollowed (index : Index) (name : String) (path : Path) : List Diagnostic :=
  match index.localExports.get? name with
  | some localName =>
    [.bare .unfollowedExport path s!"'{name}' is re-exported from local '{localName}' without a source module"]
  | none =>
    if index.namespaces.contains name then
      [.bare .unfollowedExport path s!"'{name}' is a namespace re-export, not a declaration"]
    else []

-- What lies between two moments of a search: `notes` were added and the provider was left alone.
structure Noted (before after : Search σ) (notes : List Diagnostic) : Prop where
  visited : after.visited = before.visited
  diagnostics : after.work.diagnostics = before.work.diagnostics ++ notes
  state : after.work.state = before.work.state

theorem noted_passOver (name : String) (referrer : Path) (e : ResolveError) (s : Search σ) :
    Noted s (passOver name referrer e s) [passedOver name referrer e] := by
  unfold passOver
  split <;> exact ⟨rfl, rfl, rfl⟩

theorem noted_unfollowed (index : Index) (name : String) (path : Path) (s : Search σ) :
    Noted s (noteUnfollowed index name path s) (unfollowed index name path) := by
  unfold noteUnfollowed unfollowed
  cases index.localExports.get? name with
  | some localName => exact ⟨rfl, rfl, rfl⟩
  | none =>
    dsimp only
    split
    · exact ⟨rfl, rfl, rfl⟩
    · exact ⟨rfl, (List.append_nil _).symm, rfl⟩

inductive Task where
  | look (name : String) (path : Path)
  | expand (x : Place)
  | follow (name : String) (target : Target) (referrer : Path)
  | scan (x : Place) (targets : List Target)

-- What the search makes of the wildcard targets of a file.
def scanned (x : Place) : Option Symbol × Search σ → Result σ
  | (some symbol, s) => (.ok symbol, s)
  | (none, s) => (.error (.symbolNotFound x.name x.file.path), noteUnfollowed x.index x.name x.file.path s)

def run (p : Provider σ) (request : Request) : Task → Search σ → Option (Result σ)
  | .look name path, s => lookup p request name path s
  | .expand x, s => expand p request x.name x.file x.index s
  | .follow name target referrer, s => follow p request name target referrer s
  | .scan x targets, s => (firstOf p request x.name x.file.path targets s).map (scanned x)

inductive Searched (v : View) (request : Request) :
    Task → List Hop → Except ResolveError Symbol → List Hop → List Diagnostic → Prop where
  | unreadable {name path e before} (shown : v path = .error e) :
      Searched v request (.look name path) before (.error e) before []
  | repeated {name path x before} (shown : v.enter name (.file path) = some x) (seen : x.hop ∈ before) :
      Searched v request (.look name path) before (.error (.symbolNotFound name x.file.path)) before
        [.bare .revisitedReference x.file.path s!"'{name}' was already visited in this resolution"]
  | entered {name path x before result after notes} (shown : v.enter name (.file path) = some x)
      (fresh : x.hop ∉ before) (rest : Searched v request (.expand x) (x.hop :: before) result after notes) :
      Searched v request (.look name path) before result after notes
  | declared {x declaration before} (here : x.declaration? request.kinds = some declaration) :
      Searched v request (.expand x) before (.ok (request.symbol x.name x.file.path declaration)) before []
  | bound {x binding before result after notes} (absent : x.declaration? request.kinds = none)
      (binds : x.binding? = some binding)
      (rest : Searched v request (.follow binding.name binding.target x.file.path) before result after notes) :
      Searched v request (.expand x) before result after notes
  | unbound {x before result after notes} (absent : x.declaration? request.kinds = none)
      (free : x.binding? = none)
      (rest : Searched v request (.scan x x.index.wildcards) before result after notes) :
      Searched v request (.expand x) before result after notes
  | file {name path referrer before result after notes}
      (rest : Searched v request (.look name path) before result after notes) :
      Searched v request (.follow name (.file path) referrer) before result after notes
  | package {name package referrer before} :
      Searched v request (.follow name (.package package) referrer) before
        (.error (.symbolNotFound name referrer)) before
        [.bare .packageTarget referrer s!"'{name}' comes from package '{package}', which is not followed"]
  | exhausted {x before} : Searched v request (.scan x []) before
      (.error (.symbolNotFound x.name x.file.path)) before (unfollowed x.index x.name x.file.path)
  | hit {x target rest before symbol after notes}
      (found : Searched v request (.follow x.name target x.file.path) before (.ok symbol) after notes) :
      Searched v request (.scan x (target :: rest)) before (.ok symbol) after notes
  | miss {x target rest before e between notes result after notes'}
      (failed : Searched v request (.follow x.name target x.file.path) before (.error e) between notes)
      (later : Searched v request (.scan x rest) between result after notes') :
      Searched v request (.scan x (target :: rest)) before result after
        (notes ++ passedOver x.name x.file.path e :: notes')

-- A result that the rules allow, in a state that the view still describes.
def Obeys (within : σ → Prop) (v : View) (request : Request) (task : Task) (s : Search σ)
    (r : Result σ) : Prop :=
  within s.work.state → within r.2.work.state ∧ ∃ notes,
    r.2.work.diagnostics = s.work.diagnostics ++ notes ∧
      Searched v request task s.visited r.1 r.2.visited notes

theorem run_sound (shows : p.Shows within v) (ran : run p request task s = some r) :
    Obeys within v request task s r := by
  have all := lookup.mutual_partial_correctness p request
    (fun name path s r => Obeys within v request (.look name path) s r)
    (fun name file index s r => Obeys within v request (.expand { file, index, name }) s r)
    (fun name referrer targets s r => ∀ x : Place, x.name = name → x.file.path = referrer →
      Obeys within v request (.scan x targets) s (scanned x r))
    (fun name target referrer s r => Obeys within v request (.follow name target referrer) s r)
    (by
      intro expand ih name path s r ran known
      obtain ⟨work, got, kept, reported⟩ := Work.openFile_shown shows known path
      rw [got] at ran
      cases shown : v path with
      | error e =>
        rw [shown] at ran
        cases ran
        exact ⟨kept, [], by simpa using reported, .unreadable shown⟩
      | ok answer =>
        obtain ⟨file, index⟩ := answer
        rw [shown] at ran
        dsimp only at ran
        split at ran
        · rename_i seen
          cases ran
          exact ⟨kept, _, by rw [← reported]; rfl, .repeated (View.enter_file name shown) seen⟩
        · rename_i fresh
          obtain ⟨kept', notes, added, rest⟩ := ih _ _ _ _ _ ran kept
          exact ⟨kept', notes, by rw [← reported]; exact added, .entered (View.enter_file name shown) fresh rest⟩)
    (by
      intro firstOf follow ihFirst ihFollow name file index s r ran known
      split at ran
      · rename_i declaration here
        cases ran
        exact ⟨known, [], (List.append_nil _).symm, .declared here⟩
      · rename_i absent
        split at ran
        · rename_i binding binds
          obtain ⟨kept, notes, added, rest⟩ := ihFollow _ _ _ _ _ ran known
          exact ⟨kept, notes, added, .bound absent binds rest⟩
        · rename_i free
          obtain ⟨found, first, ran⟩ := Option.bind_eq_some_iff.mp ran
          have equal : r = scanned { file, index, name } found := by
            obtain ⟨_ | symbol, s'⟩ := found <;> cases ran <;> rfl
          obtain ⟨kept, notes, added, rest⟩ := ihFirst _ _ _ _ _ first { file, index, name } rfl rfl known
          rw [equal]
          exact ⟨kept, notes, added, .unbound absent free rest⟩)
    (by
      rintro firstOf follow ihFirst ihFollow name referrer targets s r ran x rfl rfl known
      split at ran
      · cases ran
        obtain ⟨visited, diagnostics, state⟩ := noted_unfollowed x.index x.name x.file.path s
        refine ⟨by rw [scanned, state]; exact known, _, diagnostics, ?_⟩
        rw [scanned, visited]
        exact .exhausted
      · rename_i target rest
        obtain ⟨⟨result, middle⟩, one, ran⟩ := Option.bind_eq_some_iff.mp ran
        obtain ⟨kept, notes, added, first⟩ := ihFollow _ _ _ _ _ one known
        cases result with
        | ok symbol => cases ran; exact ⟨kept, notes, added, .hit first⟩
        | error e =>
          obtain ⟨visited, diagnostics, state⟩ := noted_passOver x.name x.file.path e middle
          rw [← state] at kept
          obtain ⟨kept', notes', added', later⟩ := ihFirst _ _ _ _ _ ran x rfl rfl kept
          rw [visited] at later
          refine ⟨kept', _, ?_, .miss first later⟩
          rw [added', diagnostics, added]
          simp)
    (by
      intro lookup ih name target referrer s r ran known
      split at ran
      · obtain ⟨kept, notes, added, rest⟩ := ih _ _ _ _ ran known
        exact ⟨kept, notes, added, .file rest⟩
      · cases ran
        exact ⟨known, _, rfl, .package⟩)
  cases task with
  | look name path => exact all.1 _ _ _ _ ran
  | expand x => exact all.2.1 _ _ _ _ _ ran
  | follow name target referrer => exact all.2.2.2 _ _ _ _ _ ran
  | scan x targets =>
    obtain ⟨found, first, rfl⟩ := Option.map_eq_some_iff.mp ran
    exact all.2.2.1 _ _ _ _ _ first x rfl rfl

theorem run_complete (shows : p.Shows within v) (searched : Searched v request task before result after notes) :
    ∀ s : Search σ, within s.work.state → s.visited = before →
      ∃ s', run p request task s = some (result, s') ∧ s'.visited = after ∧
        s'.work.diagnostics = s.work.diagnostics ++ notes ∧ within s'.work.state := by
  induction searched with
  | @unreadable name path e _ shown =>
    intro s known same
    obtain ⟨work, got, kept, reported⟩ := Work.openFile_shown shows known path
    refine ⟨{ s with work }, ?_, same, by simpa using reported, kept⟩
    rw [run, lookup, got, shown]
  | @repeated name path x _ shown seen =>
    intro s known same
    obtain ⟨work, got, kept, reported⟩ := Work.openFile_shown shows known path
    obtain ⟨answer, rfl⟩ := View.enter_eq shown
    subst same
    refine ⟨({ s with work } : Search σ).report .revisitedReference x.file.path
      s!"'{x.name}' was already visited in this resolution", ?_, rfl, by rw [← reported]; rfl, kept⟩
    rw [run, lookup, got, answer]
    exact if_pos seen
  | @entered name path x _ _ _ _ shown fresh rest ih =>
    intro s known same
    obtain ⟨work, got, kept, reported⟩ := Work.openFile_shown shows known path
    obtain ⟨answer, rfl⟩ := View.enter_eq shown
    subst same
    obtain ⟨s', ran, entered, added, kept'⟩ := ih (({ s with work } : Search σ).enter x.name x.file.path) kept rfl
    refine ⟨s', ?_, entered, by rw [← reported]; exact added, kept'⟩
    rw [run, lookup, got, answer]
    exact (if_neg fresh).trans ran
  | declared here =>
    intro s known same
    refine ⟨s, ?_, same, (List.append_nil _).symm, known⟩
    rw [run, expand]
    rw [Place.declaration?] at here
    rw [here]
  | bound absent binds rest ih =>
    intro s known same
    obtain ⟨s', ran, left⟩ := ih s known same
    refine ⟨s', ?_, left⟩
    rw [Place.declaration?] at absent
    rw [Place.binding?] at binds
    rw [run, expand, absent]
    dsimp only
    rw [binds]
    exact ran
  | unbound absent free rest ih =>
    intro s known same
    obtain ⟨s', ran, left⟩ := ih s known same
    refine ⟨s', ?_, left⟩
    obtain ⟨found, first, equal⟩ := Option.map_eq_some_iff.mp ran
    rw [Place.declaration?] at absent
    rw [Place.binding?] at free
    rw [run, expand, absent]
    dsimp only
    rw [free, first, ← equal]
    obtain ⟨_ | symbol, s''⟩ := found <;> rfl
  | file rest ih =>
    intro s known same
    obtain ⟨s', ran, left⟩ := ih s known same
    exact ⟨s', by rw [run, follow]; exact ran, left⟩
  | @package name package referrer _ =>
    intro s known same
    refine ⟨s.report .packageTarget referrer
      s!"'{name}' comes from package '{package}', which is not followed", ?_, same, rfl, known⟩
    rw [run, follow]
  | @exhausted x _ =>
    intro s known same
    obtain ⟨visited, diagnostics, state⟩ := noted_unfollowed x.index x.name x.file.path s
    exact ⟨_, by rw [run, firstOf]; rfl, visited.trans same, diagnostics, by rw [state]; exact known⟩
  | hit found ih =>
    intro s known same
    obtain ⟨s', ran, left⟩ := ih s known same
    refine ⟨s', ?_, left⟩
    rw [run] at ran
    rw [run, firstOf, ran]
    rfl
  | @miss x _ _ _ e _ _ _ _ _ failed later ihFailed ihLater =>
    intro s known same
    obtain ⟨s', ran, entered, added, kept⟩ := ihFailed s known same
    obtain ⟨visited, diagnostics, state⟩ := noted_passOver x.name x.file.path e s'
    rw [← state] at kept
    obtain ⟨s'', ran', entered', added', kept'⟩ := ihLater _ kept (visited.trans entered)
    refine ⟨s'', ?_, entered', by rw [added', diagnostics, added]; simp, kept'⟩
    rw [run] at ran
    rw [run] at ran'
    rw [run, firstOf, ran]
    exact ran'

theorem Searched.subset (searched : Searched v request task before result after notes) : before ⊆ after := by
  induction searched with
  | unreadable | repeated | declared | package | exhausted => exact List.Subset.refl _
  | entered _ _ _ ih => exact List.Subset.trans (List.subset_cons_self _ _) ih
  | bound _ _ _ ih | unbound _ _ _ ih | file _ ih | hit _ ih => exact ih
  | miss _ _ ihFailed ihLater => exact List.Subset.trans ihFailed ihLater

end Search

-- A reference denotes a result in a view, whatever is noted on the way.
def View.Resolves (v : View) (kinds : KindFilter) (reference : Reference)
    (result : Except ResolveError Symbol) : Prop :=
  ∃ after notes, Search.Searched v { kinds, origin := reference }
    (.look reference.name reference.file) [] result after notes

variable {σ : Type} {p : Provider σ} {v : View} {w : Work σ}

theorem resolve_searched (shows : p.Shows within v) (known : within w.state)
    (resolved : resolve p kinds reference w = some (result, w')) :
    within w'.state ∧ ∃ after notes, w'.diagnostics = w.diagnostics ++ notes ∧
      Search.Searched v { kinds, origin := reference } (.look reference.name reference.file) [] result after notes := by
  obtain ⟨⟨result', s⟩, ran, equal⟩ := Option.bind_eq_some_iff.mp resolved
  cases equal
  have looked : Search.run p { kinds, origin := reference } (.look reference.name reference.file)
      { work := w, visited := [] } = some (result, s) := ran
  obtain ⟨kept, notes, reported, searched⟩ := Search.run_sound shows looked known
  exact ⟨kept, _, notes, reported, searched⟩

theorem searched_resolve (shows : p.Shows within v) (known : within w.state)
    (searched : Search.Searched v { kinds, origin := reference } (.look reference.name reference.file) []
      result after notes) :
    ∃ w', resolve p kinds reference w = some (result, w') ∧ w'.diagnostics = w.diagnostics ++ notes ∧
      within w'.state := by
  obtain ⟨s, ran, -, reported, kept⟩ := Search.run_complete shows searched { work := w, visited := [] } known rfl
  rw [Search.run] at ran
  exact ⟨s.work, by rw [resolve, ran]; rfl, reported, kept⟩

theorem resolve_sound (shows : p.Shows within v) (known : within w.state)
    (resolved : resolve p kinds reference w = some (result, w')) :
    within w'.state ∧ v.Resolves kinds reference result := by
  obtain ⟨kept, after, notes, -, searched⟩ := resolve_searched shows known resolved
  exact ⟨kept, after, notes, searched⟩

theorem resolve_complete (shows : p.Shows within v) (known : within w.state)
    (resolves : v.Resolves kinds reference result) : ∃ w', resolve p kinds reference w = some (result, w') := by
  obtain ⟨after, notes, searched⟩ := resolves
  obtain ⟨w', resolved, -⟩ := searched_resolve shows known searched
  exact ⟨w', resolved⟩

theorem View.Resolves.unique (shows : p.Shows within v) (known : within state)
    (one : v.Resolves kinds reference result) (two : v.Resolves kinds reference result') : result = result' := by
  obtain ⟨w, resolved⟩ := resolve_complete (w := .start state) shows known one
  obtain ⟨w', resolved'⟩ := resolve_complete (w := .start state) shows known two
  rw [resolved] at resolved'
  cases resolved'
  rfl

end ComponentAtlas
