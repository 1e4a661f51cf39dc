import ComponentAtlas.Resolve.Provider
import Mathlib.Data.Set.Finite.Basic

namespace ComponentAtlas
open Outline

abbrev View := Path → Except ResolveError (SourceFile × Index)

def opened : Except ParseError SourceFile → Except ResolveError (SourceFile × Index)
  | .error e => .error (.parse e)
  | .ok file =>
    match Index.ofFile file with
    | .error e => .error e
    | .ok index => .ok (file, index)

theorem opened_ok (shown : opened answer = .ok (file, index)) :
    answer = .ok file ∧ Index.ofFile file = .ok index := by
  unfold opened at shown
  split at shown
  · cases shown
  · split at shown
    · cases shown
    · rename_i indexed
      cases shown
      exact ⟨rfl, indexed⟩

def ResolveError.OfFile : ResolveError → Prop
  | parse _ | malformedExport .. => True
  | _ => False

theorem ResolveError.OfFile.not_symbolNotFound {e : ResolveError} (ofFile : e.OfFile) : e.isSymbolNotFound = false := by
  cases e <;> first | rfl | exact ofFile.elim

theorem opened_error (shown : opened answer = .error e) : e.OfFile := by
  unfold opened at shown
  split at shown
  · cases shown; trivial
  · rename_i file
    unfold Index.ofFile at shown
    split at shown
    · rename_i refused
      split at refused
      · cases refused; cases shown; trivial
      · cases refused
    · cases shown

namespace Provider

variable {σ : Type} {p : Provider σ}

def view (p : Provider σ) (state : σ) : View := fun path => opened (p.load path state).result

inductive Reaches (p : Provider σ) (start : σ) : σ → Prop where
  | refl : Reaches p start start
  | load (earlier : Reaches p start state) : Reaches p start (p.load path state).state

theorem Reaches.trans (one : p.Reaches start middle) (two : p.Reaches middle state) :
    p.Reaches start state := by
  induction two with
  | refl => exact one
  | load _ ih => exact .load ih

-- The same path is always answered alike, and answers for the same place are the same file.
structure Consistent (p : Provider σ) (start : σ) : Prop where
  stable : p.Reaches start state → (p.load path state).result = (p.load path start).result
  same : (p.load path start).result = .ok file → (p.load other start).result = .ok file' →
    file.path.Same file'.path → file = file'

-- The places that answers come from are finitely many.
def FiniteFiles (p : Provider σ) (start : σ) : Prop :=
  {place | ∃ path file, (p.load path start).result = .ok file ∧ file.path.components = place}.Finite

-- As long as `within` holds, answers are those of the view.
structure Shows (p : Provider σ) (within : σ → Prop) (v : View) : Prop where
  answers : within state → p.view state = v
  keeps : within state → ∀ path, within (p.load path state).state

theorem Consistent.shows (consistent : p.Consistent start) : p.Shows (p.Reaches start) (p.view start) where
  answers reached := funext fun path => by rw [view, view, consistent.stable reached]
  keeps reached _ := .load reached

end Provider

namespace View

-- Two files of a view in the same place are the same.
structure Coherent (v : View) : Prop where
  same : v path = .ok (file, index) → v other = .ok (file', index') →
    file.path.components = file'.path.components → file = file' ∧ index = index'

def places (v : View) : Set (List Path.Component) :=
  {place | ∃ path file index, v path = .ok (file, index) ∧ file.path.components = place}

end View

def Outline.SourceFile.ofForms (path : String) (forms : List StatementForm) : SourceFile :=
  { path := ⟨path⟩, statements := forms.map fun form => { form, range := default } }

namespace Provider

variable {σ : Type} {p : Provider σ}

theorem Consistent.coherent (consistent : p.Consistent start) : (p.view start).Coherent := by
  refine ⟨fun one two equal => ?_⟩
  obtain ⟨answer, indexed⟩ := opened_ok one
  obtain ⟨answer', indexed'⟩ := opened_ok two
  obtain rfl := consistent.same answer answer' equal
  rw [indexed] at indexed'
  cases indexed'
  exact ⟨rfl, rfl⟩

theorem FiniteFiles.places_finite (finite : p.FiniteFiles start) : (p.view start).places.Finite := by
  refine finite.subset ?_
  rintro place ⟨path, file, index, shown, equal⟩
  exact ⟨path, file, (opened_ok shown).1, equal⟩

-- A project given as a list of files; a path leads to the first file in its place.
def ofFiles (files : List SourceFile) : Provider Unit where
  load path state :=
    { result :=
        match files.find? fun file => file.path.Same path with
        | some file => .ok file
        | none => .error (.noSource path 1)
      state
      log := [] }

theorem ofFiles_result : ((ofFiles files).load path state).result = .ok file ↔
    files.find? (fun file => file.path.Same path) = some file := by
  unfold ofFiles
  dsimp only
  split <;> rename_i found
  · rw [found, Except.ok.injEq, Option.some.injEq]
  · rw [found]
    constructor <;> rintro ⟨⟩

theorem ofFiles_consistent (files : List SourceFile) : (ofFiles files).Consistent state where
  stable _ := rfl
  same one two equal := by
    rename_i path file other file'
    rw [ofFiles_result] at one two
    -- Both paths lead to the place that the two files share.
    have here : file.path.Same path := by simpa using List.find?_some one
    have there : file'.path.Same other := by simpa using List.find?_some two
    have shared : path.components = other.components := here.symm.trans (equal.trans there)
    have alike : (fun file : SourceFile => decide (file.path.Same path)) = fun file => decide (file.path.Same other) :=
      funext fun file => decide_eq_decide.mpr (by rw [Path.Same, Path.Same, shared])
    rw [alike, two] at one
    exact (Option.some.inj one).symm

theorem ofFiles_finite (files : List SourceFile) : (ofFiles files).FiniteFiles state := by
  refine (List.finite_toSet (files.map (·.path.components))).subset ?_
  rintro place ⟨path, file, answered, rfl⟩
  exact List.mem_map.mpr ⟨file, List.mem_of_find?_eq_some (ofFiles_result.mp answered), rfl⟩

theorem ofFiles_view (found : files.find? (fun file => file.path.Same path) = some file)
    (named : file.statements.find? Index.isAnonymous = none) :
    (ofFiles files).view state path = .ok (file, Index.ofStatements file) := by
  rw [view, ofFiles_result.mpr found, opened, Index.ofFile, named]

theorem ofFiles_missing (absent : files.find? (fun file => file.path.Same path) = none) :
    (ofFiles files).view state path = .error (.parse (.noSource path 1)) := by
  unfold view ofFiles
  dsimp only
  rw [absent]
  rfl

end Provider

namespace Work

variable {σ : Type} {p : Provider σ}

theorem openFile_result (w : Work σ) (path : Path) : (w.openFile p path).1 = p.view w.state path := by
  unfold openFile Provider.view opened
  dsimp only
  cases (p.load path w.state).result with
  | error e => rfl
  | ok file =>
    dsimp only
    cases Index.ofFile file <;> rfl

theorem openFile_work (w : Work σ) (path : Path) :
    (w.openFile p path).2.state = (p.load path w.state).state ∧
      (w.openFile p path).2.diagnostics = w.diagnostics := by
  unfold openFile
  dsimp only
  split
  · exact ⟨rfl, rfl⟩
  · split <;> exact ⟨rfl, rfl⟩

-- Opening a file gives what the view has there and reports nothing.
theorem openFile_shown (shows : p.Shows within v) {w : Work σ} (known : within w.state) (path : Path) :
    ∃ work, w.openFile p path = (v path, work) ∧ within work.state ∧ work.diagnostics = w.diagnostics := by
  obtain ⟨state, diagnostics⟩ := w.openFile_work (p := p) path
  refine ⟨(w.openFile p path).2, ?_, ?_, diagnostics⟩
  · rw [← shows.answers known, ← openFile_result]
  · rw [state]
    exact shows.keeps known path

end Work
end ComponentAtlas
