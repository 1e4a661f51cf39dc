import ComponentAtlas.Proofs.SearchRules
import ComponentAtlas.Resolve.Exports

namespace ComponentAtlas
open Outline

namespace Enumeration

variable {σ : Type} {p : Provider σ} {v : View}

-- What becomes of a name whose re-export was resolved.
def settle (l : ExportList) (name : String) (path : Path) : Except ResolveError Symbol → ExportList
  | .ok symbol => l.insert name { via := path, declaredName := symbol.name, declaredIn := symbol.file }
  | .error e => if e.isSymbolNotFound then l else l.fail name e

inductive Reexported (v : View) (path : Path) : List String → ExportList → List Diagnostic → ExportList → Prop where
  | done {l} : Reexported v path [] l [] l
  | taken {name names l notes l'} (taken : l.isTaken name = true) (rest : Reexported v path names l notes l') :
      Reexported v path (name :: names) l notes l'
  | tried {name names l result after notes notes' l'} (free : l.isTaken name = false)
      (searched : Search.Searched v { kinds := .classes, origin := .of name path } (.look name path) []
        result after notes)
      (rest : Reexported v path names (settle l name path result) notes' l') :
      Reexported v path (name :: names) l (notes ++ notes') l'

inductive Task where
  | file (path : Path) (index : Index)
  | targets (path : Path) (targets : List Target)
  | visit (path : Path)

def run (p : Provider σ) : Task → Enumeration σ → Option (Enumeration σ)
  | .file path index, s => addFile p path index s
  | .targets path targets, s => addTargets p path targets s
  | .visit path, s => visit p path s

inductive Collected (v : View) : Task → List (List Path.Component) → ExportList → List Diagnostic →
    List (List Path.Component) → ExportList → Prop where
  | again {path index before l} (seen : path.components ∈ before) :
      Collected v (.file path index) before l [] before l
  | entered {path index before l notes middle notes' after l'} (fresh : path.components ∉ before)
      (own : Reexported v path index.reexports.keys (addClasses path index.exportedClasses.keys l) notes middle)
      (rest : Collected v (.targets path index.wildcards) (path.components :: before) middle notes' after l') :
      Collected v (.file path index) before l (notes ++ notes') after l'
  | done {path before l} : Collected v (.targets path []) before l [] before l
  | file {path target rest before l notes between middle notes' after l'}
      (first : Collected v (.visit target) before l notes between middle)
      (later : Collected v (.targets path rest) between middle notes' after l') :
      Collected v (.targets path (.file target :: rest)) before l (notes ++ notes') after l'
  | package {path package rest before l notes after l'}
      (later : Collected v (.targets path rest) before l notes after l') :
      Collected v (.targets path (.package package :: rest)) before l
        (.bare .packageTarget path s!"wildcard re-export of package '{package}' is not followed" :: notes) after l'
  | unreadable {path e before l} (shown : v path = .error e) :
      Collected v (.visit path) before l
        [.bare .suppressedWildcardTarget path s!"wildcard target skipped: {e.message}"] before l
  | opened {path file index before l notes after l'} (shown : v path = .ok (file, index))
      (rest : Collected v (.file file.path index) before l notes after l') :
      Collected v (.visit path) before l notes after l'

theorem Collected.of_bare (fresh : path.components ∉ before) (bare : index.reexports.keys = [])
    (wildcards : index.wildcards = targets)
    (rest : Collected v (.targets path targets) (path.components :: before)
      (addClasses path index.exportedClasses.keys l) notes after l') :
    Collected v (.file path index) before l notes after l' := by
  have own : Reexported v path index.reexports.keys (addClasses path index.exportedClasses.keys l) []
      (addClasses path index.exportedClasses.keys l) := by
    rw [bare]
    exact .done
  rw [← wildcards] at rest
  exact .entered fresh own rest

-- One re-export: its name is taken, or its search settles what becomes of it.
theorem addReexport_sound (shows : p.Shows within v) {s : Enumeration σ} (known : within s.work.state)
    (free : s.found.isTaken name = false) (added : addReexport p path s name = some s') :
    within s'.work.state ∧ s'.visited = s.visited ∧ ∃ result after notes,
      s'.work.diagnostics = s.work.diagnostics ++ notes ∧ s'.found = settle s.found name path result ∧
      Search.Searched v { kinds := .classes, origin := .of name path } (.look name path) [] result after notes := by
  rw [addReexport, if_neg (ne_true_of_eq_false free)] at added
  obtain ⟨⟨result, work⟩, resolved, added⟩ := Option.bind_eq_some_iff.mp added
  obtain ⟨kept, after, notes, reported, searched⟩ := resolve_searched shows known resolved
  cases result with
  | ok symbol =>
    cases added
    exact ⟨kept, rfl, _, after, notes, reported, rfl, searched⟩
  | error e =>
    dsimp only at added
    split at added
    · rename_i missing
      cases added
      exact ⟨kept, rfl, _, after, notes, reported, by rw [settle, if_pos missing], searched⟩
    · rename_i other
      cases added
      exact ⟨kept, rfl, _, after, notes, reported, by rw [settle, if_neg other], searched⟩

theorem reexports_sound (shows : p.Shows within v) {s : Enumeration σ} (known : within s.work.state)
    (added : names.foldlM (addReexport p path) s = some s') :
    within s'.work.state ∧ s'.visited = s.visited ∧ ∃ notes,
      s'.work.diagnostics = s.work.diagnostics ++ notes ∧ Reexported v path names s.found notes s'.found := by
  induction names generalizing s with
  | nil =>
    cases added
    exact ⟨known, rfl, [], (List.append_nil _).symm, .done⟩
  | cons name names ih =>
    obtain ⟨middle, one, rest⟩ := Option.bind_eq_some_iff.mp added
    cases free : s.found.isTaken name with
    | true =>
      rw [addReexport, if_pos free] at one
      cases one
      obtain ⟨kept, visited, notes, reported, later⟩ := ih known rest
      exact ⟨kept, visited, notes, reported, .taken free later⟩
    | false =>
      obtain ⟨kept, visited, result, after, notes, reported, settled, searched⟩ := addReexport_sound shows known free one
      obtain ⟨kept', visited', notes', reported', later⟩ := ih kept rest
      rw [settled] at later
      refine ⟨kept', visited'.trans visited, notes ++ notes', ?_, .tried free searched later⟩
      rw [reported', reported, List.append_assoc]

theorem reexports_complete (shows : p.Shows within v) (reexported : Reexported v path names l notes l') :
    ∀ s : Enumeration σ, within s.work.state → s.found = l →
      ∃ s', names.foldlM (addReexport p path) s = some s' ∧ within s'.work.state ∧ s'.visited = s.visited ∧
        s'.work.diagnostics = s.work.diagnostics ++ notes ∧ s'.found = l' := by
  induction reexported with
  | done => exact fun s known same => ⟨s, rfl, known, rfl, (List.append_nil _).symm, same⟩
  | taken taken rest ih =>
    rintro s known rfl
    obtain ⟨s', added, left⟩ := ih s known rfl
    exact ⟨s', by rw [List.foldlM_cons, addReexport, if_pos taken]; exact added, left⟩
  | @tried name names l result after notes notes' l' free searched rest ih =>
    rintro s known rfl
    obtain ⟨work, resolved, reported, kept⟩ := searched_resolve shows known searched
    have one : ∃ middle, addReexport p path s name = some middle ∧ within middle.work.state ∧
        middle.visited = s.visited ∧ middle.work.diagnostics = work.diagnostics ∧
        middle.found = settle s.found name path result := by
      rw [addReexport, if_neg (ne_true_of_eq_false free), resolved]
      cases result with
      | ok symbol => exact ⟨_, rfl, kept, rfl, rfl, rfl⟩
      | error e =>
        unfold settle
        simp only [Option.bind_eq_bind, Option.bind_some]
        split
        · exact ⟨_, rfl, kept, rfl, rfl, rfl⟩
        · exact ⟨_, rfl, kept, rfl, rfl, rfl⟩
    obtain ⟨middle, first, kept', visited, reported', settled⟩ := one
    obtain ⟨s', added, kept'', visited', reported'', left⟩ := ih middle kept' settled
    refine ⟨s', by rw [List.foldlM_cons, first]; exact added, kept'', visited'.trans visited, ?_, left⟩
    rw [reported'', reported', reported, List.append_assoc]

def Obeys (within : σ → Prop) (v : View) (task : Task) (s s' : Enumeration σ) : Prop :=
  within s.work.state → within s'.work.state ∧ ∃ notes, s'.work.diagnostics = s.work.diagnostics ++ notes ∧
    Collected v task s.visited s.found notes s'.visited s'.found

theorem run_sound (shows : p.Shows within v) (ran : run p task s = some s') : Obeys within v task s s' := by
  have all := addFile.mutual_partial_correctness p
    (fun path index s s' => Obeys within v (.file path index) s s')
    (fun path targets s s' => Obeys within v (.targets path targets) s s')
    (fun path s s' => Obeys within v (.visit path) s s')
    (by
      intro addTargets ih path index s s' ran known
      split at ran
      · rename_i seen
        cases ran
        exact ⟨known, [], (List.append_nil _).symm, .again seen⟩
      · rename_i fresh
        obtain ⟨middle, own, ran⟩ := Option.bind_eq_some_iff.mp ran
        obtain ⟨kept, visited, notes, reported, reexported⟩ := reexports_sound shows (by exact known) own
        obtain ⟨kept', notes', reported', rest⟩ := ih _ _ _ _ ran kept
        rw [visited] at rest
        exact ⟨kept', _, by rw [reported', reported, List.append_assoc], .entered fresh reexported rest⟩)
    (by
      intro addTargets visit ihTargets ihVisit path targets s s' ran known
      split at ran
      · cases ran
        exact ⟨known, [], (List.append_nil _).symm, .done⟩
      · obtain ⟨middle, one, ran⟩ := Option.bind_eq_some_iff.mp ran
        obtain ⟨kept, notes, reported, first⟩ := ihVisit _ _ _ one known
        obtain ⟨kept', notes', reported', later⟩ := ihTargets _ _ _ _ ran kept
        exact ⟨kept', _, by rw [reported', reported, List.append_assoc], .file first later⟩
      · obtain ⟨kept, notes, reported, later⟩ := ihTargets _ _ _ _ ran known
        exact ⟨kept, _, by rw [reported]; exact List.append_assoc _ [_] _, .package later⟩)
    (by
      intro addFile ih path s s' ran known
      obtain ⟨work, got, kept, reported⟩ := Work.openFile_shown shows known path
      rw [got] at ran
      cases shown : v path with
      | error e =>
        rw [shown] at ran
        cases ran
        exact ⟨kept, _, by rw [← reported]; rfl, .unreadable shown⟩
      | ok answer =>
        rw [shown] at ran
        obtain ⟨kept', notes, reported', rest⟩ := ih _ _ _ _ ran kept
        exact ⟨kept', notes, by rw [← reported]; exact reported', .opened shown rest⟩)
  cases task with
  | file path index => exact all.1 _ _ _ _ ran
  | targets path targets => exact all.2.1 _ _ _ _ ran
  | visit path => exact all.2.2 _ _ _ ran

theorem run_complete (shows : p.Shows within v) (collected : Collected v task before l notes after l') :
    ∀ s : Enumeration σ, within s.work.state → s.visited = before → s.found = l →
      ∃ s', run p task s = some s' ∧ within s'.work.state ∧ s'.work.diagnostics = s.work.diagnostics ++ notes ∧
        s'.visited = after ∧ s'.found = l' := by
  induction collected with
  | again seen =>
    rintro s known rfl rfl
    exact ⟨s, by rw [run, addFile, if_pos seen], known, (List.append_nil _).symm, rfl, rfl⟩
  | @entered path index _ _ _ _ _ _ _ fresh own rest ih =>
    rintro s known rfl rfl
    let start := { s with
      visited := path.components :: s.visited, found := addClasses path index.exportedClasses.keys s.found }
    obtain ⟨middle, added, kept, visited, reported, found⟩ := reexports_complete shows own start known rfl
    obtain ⟨s', ran, kept', reported', left⟩ := ih middle kept visited found
    refine ⟨s', ?_, kept', by rw [reported', reported, List.append_assoc], left⟩
    rw [run, addFile, if_neg fresh, addOwn, added]
    exact ran
  | done =>
    rintro s known rfl rfl
    exact ⟨s, by rw [run, addTargets], known, (List.append_nil _).symm, rfl, rfl⟩
  | file first later ihFirst ihLater =>
    rintro s known rfl rfl
    obtain ⟨middle, ran, kept, reported, visited, found⟩ := ihFirst s known rfl rfl
    obtain ⟨s', ran', kept', reported', left⟩ := ihLater middle kept visited found
    refine ⟨s', ?_, kept', by rw [reported', reported, List.append_assoc], left⟩
    rw [run] at ran
    rw [run] at ran'
    rw [run, addTargets, ran]
    exact ran'
  | @package path package rest _ _ _ _ _ later ih =>
    rintro s known rfl rfl
    obtain ⟨s', ran, kept, reported, left⟩ := ih (passPackage path package s) known rfl rfl
    refine ⟨s', by rw [run, addTargets]; exact ran, kept, ?_, left⟩
    rw [reported]
    exact List.append_assoc _ [_] _
  | @unreadable path e _ _ shown =>
    rintro s known rfl rfl
    obtain ⟨work, got, kept, reported⟩ := Work.openFile_shown shows known path
    let left := { s with
      work := work.report .suppressedWildcardTarget path s!"wildcard target skipped: {e.message}" }
    exact ⟨left, by rw [run, visit, got, shown], kept, by rw [← reported]; rfl, rfl, rfl⟩
  | @opened path file index _ _ _ _ _ shown rest ih =>
    rintro s known rfl rfl
    obtain ⟨work, got, kept, reported⟩ := Work.openFile_shown shows known path
    obtain ⟨s', ran, kept', reported', left⟩ := ih { s with work } kept rfl rfl
    refine ⟨s', ?_, kept', by rw [← reported]; exact reported', left⟩
    rw [run, visit, got, shown]
    exact ran

end Enumeration

variable {σ : Type} {p : Provider σ} {v : View} {w : Work σ}

theorem exportedClasses_unreadable (shows : p.Shows within v) (known : within w.state) (shown : v entry = .error e) :
    ∃ w', exportedClasses p entry w = some (.error e, w') := by
  obtain ⟨work, got, -, -⟩ := Work.openFile_shown shows known entry
  exact ⟨work, by rw [exportedClasses, got, shown]⟩

theorem exportedClasses_collected (shows : p.Shows within v) (known : within w.state)
    (enumerated : exportedClasses p entry w = some (.ok l, w')) :
    ∃ file index notes after, v entry = .ok (file, index) ∧ w'.diagnostics = w.diagnostics ++ notes ∧
      Enumeration.Collected v (.file file.path index) [] .empty notes after l := by
  obtain ⟨work, got, kept, reported⟩ := Work.openFile_shown shows known entry
  rw [exportedClasses, got] at enumerated
  cases shown : v entry with
  | error e =>
    rw [shown] at enumerated
    cases enumerated
  | ok answer =>
    obtain ⟨file, index⟩ := answer
    rw [shown] at enumerated
    obtain ⟨s, ran, equal⟩ := Option.bind_eq_some_iff.mp enumerated
    cases equal
    have all : Enumeration.run p (.file file.path index) { work, visited := [], found := .empty } = some s := ran
    obtain ⟨-, notes, reported', collected⟩ := Enumeration.run_sound shows all kept
    exact ⟨file, index, notes, _, rfl, by rw [reported', reported], collected⟩

theorem collected_exportedClasses (shows : p.Shows within v) (known : within w.state)
    (shown : v entry = .ok (file, index))
    (collected : Enumeration.Collected v (.file file.path index) [] .empty notes after l) :
    ∃ w', exportedClasses p entry w = some (.ok l, w') ∧ w'.diagnostics = w.diagnostics ++ notes := by
  obtain ⟨work, got, kept, reported⟩ := Work.openFile_shown shows known entry
  obtain ⟨s, ran, -, reported', -, rfl⟩ := Enumeration.run_complete shows collected
    { work, visited := [], found := .empty } kept rfl rfl
  rw [Enumeration.run] at ran
  refine ⟨s.work, ?_, by rw [reported', reported]⟩
  rw [exportedClasses, got, shown]
  dsimp only
  rw [ran]
  rfl

-- An enumeration from an entry that can be opened ends in a list exactly when the rules lead to it.
theorem exportedClasses_iff (shows : p.Shows within v) (known : within w.state) :
    (∃ w', exportedClasses p entry w = some (.ok l, w')) ↔ ∃ file index notes after,
      v entry = .ok (file, index) ∧ Enumeration.Collected v (.file file.path index) [] .empty notes after l := by
  constructor
  · rintro ⟨w', enumerated⟩
    obtain ⟨file, index, notes, after, shown, -, collected⟩ := exportedClasses_collected shows known enumerated
    exact ⟨file, index, notes, after, shown, collected⟩
  · rintro ⟨file, index, notes, after, shown, collected⟩
    obtain ⟨w', enumerated, -⟩ := collected_exportedClasses shows known shown collected
    exact ⟨w', enumerated⟩

end ComponentAtlas
