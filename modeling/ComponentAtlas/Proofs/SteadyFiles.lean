import ComponentAtlas.Proofs.FirstMatch
import ComponentAtlas.Proofs.LibraryMemo

-- A library that has read nothing answers with the spelling it was asked for, and later with that one for every
-- spelling. So it is no consistent provider, but it keeps in step with one: the same files, each under one spelling.
namespace ComponentAtlas
open Outline

namespace FileTree

variable {t : FileTree} {within : Set (List Path.Component)}

noncomputable def spelling (t : FileTree) (place : List Path.Component) : Path :=
  Classical.epsilon fun p => t.isFile p = true ∧ p.components = place

theorem spelling_spec (file : t.isFile p = true) :
    t.isFile (t.spelling p.components) = true ∧ (t.spelling p.components).components = p.components :=
  Classical.epsilon_spec (p := fun q => t.isFile q = true ∧ q.components = p.components) ⟨p, file, rfl⟩

theorem twin_spelling (file : t.isFile p = true) : t.Twin p (t.spelling p.components) := by
  obtain ⟨isFile, same⟩ := spelling_spec file
  exact .inr ⟨same.symm, file, isFile⟩

open Classical in
-- The files of a tree, of which only those in some places can be had.
noncomputable def steady (t : FileTree) (within : Set (List Path.Component)) : Provider Unit where
  load path state :=
    { result := (t.findSource path).bind fun found => (t.outlineAt (t.spelling found.components)).bind fun file =>
        if found.components ∈ within then .ok file else .error (.noSource path (sourceCandidates path).length)
      state
      log := [] }

open Classical in
theorem steady_result : ((t.steady within).load path state).result =
    (t.findSource path).bind fun found => (t.outlineAt (t.spelling found.components)).bind fun file =>
      if found.components ∈ within then .ok file else .error (.noSource path (sourceCandidates path).length) := rfl

theorem outlineAt_path (read : t.outlineAt p = .ok file) : file.path = p := by
  unfold outlineAt at read
  split at read
  · cases read
  · unfold outline at read
    split at read
    · cases read
      rfl
    · cases read

theorem steady_ok (answered : ((t.steady within).load path state).result = .ok file) :
    ∃ found, t.findSource path = .ok found ∧ t.outlineAt (t.spelling found.components) = .ok file ∧
      found.components ∈ within := by
  rw [steady_result] at answered
  cases probed : t.findSource path with
  | error e => simp [probed, Except.bind] at answered
  | ok found =>
    cases read : t.outlineAt (t.spelling found.components) with
    | error e => simp [probed, read, Except.bind] at answered
    | ok file' =>
      by_cases inside : found.components ∈ within
      · simp only [probed, read, Except.bind, if_pos inside, Except.ok.injEq] at answered
        exact ⟨found, rfl, answered ▸ read, inside⟩
      · simp [probed, read, Except.bind, inside] at answered

theorem steady_place (answered : ((t.steady within).load path state).result = .ok file) :
    file.path = t.spelling file.path.components ∧ file.path.components ∈ within := by
  obtain ⟨found, probed, read, inside⟩ := steady_ok answered
  have here := outlineAt_path read
  have same := (spelling_spec (findSource_isFile probed)).2
  rw [here, same]
  exact ⟨rfl, inside⟩

theorem steady_consistent (t : FileTree) (within : Set (List Path.Component)) : (t.steady within).Consistent () where
  stable _ := rfl
  same one two equal := by
    obtain ⟨found, -, read, -⟩ := steady_ok one
    obtain ⟨found', -, read', -⟩ := steady_ok two
    have here := (steady_place one).1
    rw [equal, ← (steady_place two).1, outlineAt_path read, outlineAt_path read'] at here
    rw [here, read'] at read
    exact (Except.ok.inj read).symm

theorem steady_finite (t : FileTree) (few : within.Finite) : (t.steady within).FiniteFiles () := by
  refine few.subset ?_
  rintro place ⟨path, file, answered, rfl⟩
  exact (steady_place answered).2

end FileTree

namespace Library

variable {t : FileTree} {l : Library} {w w' : Work Library}

-- A library over the tree that has answered requests, if any, from files as they are.
def Warm (t : FileTree) (l : Library) : Prop := l.tree = t ∧ Interchangeable l (ofTree t)

theorem warm_requests (t : FileTree) (paths : List Path) : Warm t ((ofTree t).after (paths.map .load)) := by
  have alike := (ofTree t).requests_interchangeable paths
  exact ⟨alike.tree, alike⟩

def places (l : Library) : Set (List Path.Component) := {place | place ∈ l.known.map (·.1)}

theorem places_finite (l : Library) : l.places.Finite := List.finite_toSet _

theorem places_load (l : Library) (path : Path) : l.places ⊆ (l.load path).state.places := by
  obtain same | ⟨found, file, -, -, -, same⟩ := l.load_state path
  · rw [same]
  · rw [same]
    exact fun place member => List.mem_cons_of_mem _ member

theorem mem_places_load (probed : l.tree.findSource path = .ok found) (answered : (l.load path).result = .ok file) :
    found.components ∈ (l.load path).state.places := by
  have known := l.lookup_load probed found.components
  rw [if_pos rfl, answered] at known
  obtain ⟨front, behind, entries, -⟩ := List.lookup_eq_some_iff.mp known
  exact List.mem_map.mpr ⟨(found.components, file), by simp [entries], rfl⟩

theorem steady_lockstep (t : FileTree) (within : Set (List Path.Component)) :
    Lockstep provider (t.steady within) t.Twin (fun l _ => Warm t l) (fun l => l.places ⊆ within) where
  refl := .inl rfl
  same := FileTree.Twin.same
  earlier := fun {path l} held => (l.places_load path).trans held
  load := by
    rintro l - path path' ⟨rfl, alike⟩ twin held
    refine ⟨?_, l.load_tree path, (l.load_interchangeable path).trans alike⟩
    change Agrees _ _ (l.load path).result _
    have probes := FileTree.findSource_twin twin
    rw [FileTree.steady_result]
    cases probed : l.tree.findSource path with
    | error e =>
      rw [probed] at probes
      rw [load_result, probed]
      generalize l.tree.findSource path' = probe at probes ⊢
      cases probes with
      | error both => exact .error both
    | ok found =>
      rw [probed] at probes
      generalize l.tree.findSource path' = probe at probes ⊢
      cases probes with
      | @ok _ found' twin =>
        have isFile := FileTree.findSource_isFile probed
        have read : Respelled l.tree.Twin (l.load path).result (l.tree.outlineAt found) := by
          have answers := alike.load path
          rwa [load_found (l := ofTree l.tree) probed] at answers
        have outlines := read.before (FileTree.outlineAt_twin (FileTree.twin_spelling isFile))
        have inside (file : SourceFile) (answered : (l.load path).result = .ok file) : found.components ∈ within :=
          held (mem_places_load probed answered)
        dsimp only [Except.bind]
        rw [← show found.components = found'.components from twin.same]
        generalize (l.load path).result = answer, l.tree.outlineAt (l.tree.spelling found.components) = steady
          at outlines inside ⊢
        cases outlines with
        | error both => exact .error both
        | ok both =>
          dsimp only
          rw [if_pos (inside _ rfl)]
          exact .ok both

theorem Warm.works (warm : Warm t w.state) : Work.Like t.Twin (fun l (_ : Unit) => Warm t l) w { w with state := () } :=
  ⟨warm, List.forall₂_same.mpr fun _ _ => ⟨rfl, .inl rfl, rfl, .same⟩⟩

-- What the program itself finds with such a library is, up to the spelling of paths, what it finds with a provider that
-- is consistent and has finitely many files.
theorem resolve_steady (warm : Warm t w.state) (resolved : resolve provider kinds reference w = some (result, w')) :
    (t.steady w'.state.places).Consistent () ∧ (t.steady w'.state.places).FiniteFiles () ∧
      ∃ result' after,
        resolve (t.steady w'.state.places) kinds reference { w with state := () } = some (result', after) ∧
        Agrees (ResolveError.Like t.Twin) (Symbol.Like t.Twin) result result' := by
  have lockstep := steady_lockstep t w'.state.places
  obtain ⟨⟨result', after⟩, ran, results, -⟩ :=
    (lockstep.resolve_sound resolved (Set.Subset.refl _)).2 reference _ ⟨rfl, .inl rfl, rfl⟩ warm.works
  exact ⟨t.steady_consistent _, t.steady_finite (places_finite _), result', after, ran, results⟩

-- So it is what the plain walk through the files meets first.
theorem resolve_met (warm : Warm t w.state) (resolved : resolve provider kinds reference w = some (.ok symbol, w')) :
    ∃ x declaration, FirstMatch ((t.steady w'.state.places).view ()) kinds []
        (((t.steady w'.state.places).view ()).starts reference) (some x) ∧ x.declaration? kinds = some declaration ∧
      symbol.Like t.Twin (({ kinds, origin := reference } : Request).symbol x.name x.file.path declaration) := by
  obtain ⟨consistent, -, result', after, ran, results⟩ := resolve_steady warm resolved
  cases results with
  | ok alike =>
    obtain ⟨-, resolves⟩ := resolve_sound consistent.shows .refl ran
    obtain ⟨x, declaration, first, -, declared, rfl⟩ := resolves.first consistent.coherent
    exact ⟨x, declaration, first, declared, alike⟩

theorem loadLineage_steady (warm : Warm t w.state)
    (resolved : resolve provider kinds reference w = some (.ok symbol, middle))
    (linked : loadLineage provider symbol middle = some (result, w')) :
    (t.steady w'.state.places).Consistent () ∧ (t.steady w'.state.places).FiniteFiles () ∧
      ∃ symbol' after result' last,
        resolve (t.steady w'.state.places) kinds reference { w with state := () } = some (.ok symbol', after) ∧
        symbol.Like t.Twin symbol' ∧ loadLineage (t.steady w'.state.places) symbol' after = some (result', last) ∧
        Agrees (ResolveError.Like t.Twin) (Lineage.Like t.Twin) result result' := by
  have lockstep := steady_lockstep t w'.state.places
  obtain ⟨held, links⟩ := lockstep.link_sound linked (Set.Subset.refl _)
  obtain ⟨⟨_, after⟩, ran, found, works⟩ :=
    (lockstep.resolve_sound resolved held).2 reference _ ⟨rfl, .inl rfl, rfl⟩ warm.works
  cases found with
  | @ok _ symbol' alike =>
    obtain ⟨⟨result', last⟩, ran', results, -⟩ := links symbol' after alike works
    exact ⟨t.steady_consistent _, t.steady_finite (places_finite _), symbol', after, result', last, ran, alike, ran',
      results⟩

theorem exportedClasses_steady (warm : Warm t w.state)
    (enumerated : exportedClasses provider entry w = some (result, w')) :
    (t.steady Set.univ).Consistent () ∧
      ∃ result' after, exportedClasses (t.steady Set.univ) entry { w with state := () } = some (result', after) ∧
        Agrees (ResolveError.Like t.Twin) (ExportList.Like t.Twin) result result' := by
  have lockstep := steady_lockstep t Set.univ
  simp only [Set.subset_univ] at lockstep
  obtain ⟨⟨result', after⟩, ran, results, -⟩ := lockstep.exportedClasses (.inl rfl) warm.works enumerated
  exact ⟨t.steady_consistent _, result', after, ran, results⟩

end Library
end ComponentAtlas
