import ComponentAtlas.Proofs.OutputFiles

namespace ComponentAtlas
open Outline

namespace FileTree

variable {t t' : FileTree} {places more : Location → Prop} {p : Path}

structure Beside (places : Location → Prop) (t t' : FileTree) : Prop where
  grown : t.Grows t'
  directory : t'.entry? place = some .directory → t.entry? place = some .directory
  elsewhere : ¬ places place → t'.entry? place = t.entry? place

theorem Beside.refl (places : Location → Prop) (t : FileTree) : t.Beside places t := ⟨.refl t, id, fun _ => rfl⟩

theorem Beside.mono (beside : t.Beside places t') (wider : ∀ place, places place → more place) : t.Beside more t' :=
  ⟨beside.grown, beside.directory, fun outside => beside.elsewhere fun inside => outside (wider _ inside)⟩

theorem Beside.trans (one : t.Beside places between) (two : between.Beside more t') :
    t.Beside (fun place => places place ∨ more place) t' where
  grown := one.grown.trans two.grown
  directory here := one.directory (two.directory here)
  elsewhere outside := by
    rw [two.elsewhere fun inside => outside (.inr inside), one.elsewhere fun inside => outside (.inl inside)]

theorem Puts.beside (puts : t.Puts t' p content place) : t.Beside (· = place) t' where
  grown := puts.grown
  directory {other} here := by
    by_cases same : other = place
    · rw [same, puts.here] at here
      cases here
    · rwa [puts.elsewhere same] at here
  elsewhere outside := puts.elsewhere outside

theorem Beside.locate_iff (beside : t.Beside places t') : t'.locate p = .ok place ↔ t.locate p = .ok place :=
  ⟨locate_kept beside.grown.base.symm beside.directory, beside.grown.locate⟩

theorem Beside.isFile_eq (beside : t.Beside places t') (clear : ∀ place, t.locate p = .ok place → ¬ places place) :
    t'.isFile p = t.isFile p := by
  rw [isFile, isFile, lookup?, lookup?]
  cases located : t.locate p with
  | ok place =>
    rw [beside.grown.locate located]
    dsimp only
    rw [beside.elsewhere (clear place located)]
  | error e =>
    cases located' : t'.locate p with
    | ok place =>
      rw [beside.locate_iff.mp located'] at located
      cases located
    | error e' => rfl

theorem Beside.outlineAt_eq (beside : t.Beside places t') (located : t.locate p = .ok place) (clear : ¬ places place) :
    t'.outlineAt p = t.outlineAt p := by
  rw [outlineAt, outlineAt, readText, readText, located, beside.grown.locate located]
  dsimp only
  rw [beside.elsewhere clear]

-- The places that are looked at for the source behind a path: those of the candidates, up to the first file.
def Probes (t : FileTree) (path : Path) (place : Location) : Prop :=
  ∃ front candidate back, sourceCandidates path = front ++ candidate :: back ∧ (∀ c ∈ front, t.isFile c = false) ∧
    t.locate candidate = .ok place

theorem probes_of_isFile (file : t.isFile path = true) (probes : t.Probes path place) : t.locate path = .ok place := by
  obtain ⟨front, candidate, back, split, passed, located⟩ := probes
  obtain ⟨rest, first⟩ : ∃ rest, sourceCandidates path = path :: rest := ⟨_, rfl⟩
  rw [first] at split
  cases front with
  | nil =>
    cases split
    exact located
  | cons other front =>
    cases split
    rw [passed path List.mem_cons_self] at file
    cases file

theorem find?_congr_upto {α : Type} {p q : α → Bool} {l : List α}
    (same : ∀ front x back, l = front ++ x :: back → (∀ y ∈ front, p y = false) → p x = q x) : l.find? p = l.find? q := by
  induction l with
  | nil => rfl
  | cons x rest ih =>
    have first : p x = q x := same [] x rest rfl nofun
    rw [List.find?_cons, List.find?_cons, ← first]
    cases miss : p x with
    | true => rfl
    | false =>
      refine ih fun front y back equal passed => ?_
      exact same (x :: front) y back (by rw [equal]; rfl) (List.forall_mem_cons.mpr ⟨miss, passed⟩)

theorem Beside.findSource_eq (one : t.Beside places between) (two : t.Beside places t')
    (clear : ∀ place, between.Probes path place → ¬ places place) : between.findSource path = t'.findSource path := by
  have same : (sourceCandidates path).find? between.isFile = (sourceCandidates path).find? t'.isFile := by
    refine find?_congr_upto fun front candidate back equal passed => ?_
    have free : ∀ place, t.locate candidate = .ok place → ¬ places place := fun place located =>
      clear place ⟨front, candidate, back, equal, passed, one.grown.locate located⟩
    rw [one.isFile_eq free, two.isFile_eq free]
  rw [findSource, findSource, same]

theorem probes_self (located : t.locate path = .ok place) : t.Probes path place := by
  obtain ⟨rest, first⟩ : ∃ rest, sourceCandidates path = path :: rest := ⟨_, rfl⟩
  exact ⟨[], path, rest, first, nofun, located⟩

end FileTree

namespace Library

variable {start l l' : Library} {places more : Location → Prop}

structure Beside (places : Location → Prop) (start l : Library) : Prop where
  tree : start.tree.Beside places l.tree
  outlines : start.tree.isFile found = true → (∀ place, start.tree.locate found = .ok place → ¬ places place) →
    Respelled start.tree.Twin (start.outlineOf found) (l.outlineOf found)

theorem Beside.refl (places : Location → Prop) (start : Library) : start.Beside places start :=
  ⟨.refl places _, fun _ _ => .refl _⟩

theorem Beside.mono (beside : start.Beside places l) (wider : ∀ place, places place → more place) :
    start.Beside more l :=
  ⟨beside.tree.mono wider, fun file clear => beside.outlines file fun place located inside =>
    clear place located (wider place inside)⟩

theorem Beside.answers (one : start.Beside places l) (two : start.Beside places l') (twin : start.tree.Twin path path')
    (clear : ∀ place, l.tree.Probes path place → ¬ places place) :
    Agrees (ParseError.Like start.tree.Twin) (SourceFile.Like start.tree.Twin) (l.load path).result
      (l'.load path').result := by
  rcases twin with rfl | ⟨same, file, file'⟩
  · have sources := one.tree.findSource_eq two.tree clear
    rw [load_result, load_result, ← sources]
    cases probed : l.tree.findSource path with
    | error e => exact .error (.refl (fun _ => .inl rfl) e)
    | ok found =>
      have free : ∀ place, start.tree.locate found = .ok place → ¬ places place := by
        intro place located
        unfold FileTree.findSource at probed
        split at probed
        · rename_i other first
          cases probed
          obtain ⟨-, front, back, split, passed⟩ := List.find?_eq_some_iff_append.mp first
          exact clear place ⟨front, found, back, split, by simpa using passed, one.tree.grown.locate located⟩
        · cases probed
      have file : start.tree.isFile found = true := by
        rw [← one.tree.isFile_eq free]
        exact FileTree.findSource_isFile probed
      exact ((one.outlines file free).symm.trans (two.outlines file free)).agrees
  · obtain ⟨place, located⟩ := FileTree.locate_of_isFile file
    obtain ⟨place', located'⟩ := FileTree.locate_of_isFile file'
    have here : ¬ places place := clear place (FileTree.probes_self (one.tree.grown.locate located))
    have there : place = place' := FileTree.locate_same same located located'
    have free : ∀ other, start.tree.locate path = .ok other → ¬ places other := by
      intro other located''
      rw [located] at located''
      cases located''
      exact here
    have free' : ∀ other, start.tree.locate path' = .ok other → ¬ places other := by
      intro other located''
      rw [located'] at located''
      cases located''
      exact there ▸ here
    rw [load_found (FileTree.findSource_of_isFile (one.tree.grown.isFile file)),
      load_found (FileTree.findSource_of_isFile (two.tree.grown.isFile file'))]
    have spelled := start.outlineOf_twin (.inr ⟨same, file, file'⟩)
    exact Respelled.behind ((one.outlines file free).symm.before spelled) (two.outlines file' free')

-- A request makes no difference: what was read could be read from the start.
theorem Beside.load (beside : start.Beside places l) (path : Path) : start.Beside places (l.load path).state := by
  obtain same | ⟨found, file, probed, new, read, same⟩ := l.load_state path
  · rw [same]
    exact beside
  · rw [same]
    refine ⟨beside.tree, fun {other} isFile clear => ?_⟩
    by_cases here : found.components = other.components
    · obtain ⟨place, located⟩ := FileTree.locate_of_isFile isFile
      obtain ⟨place', located'⟩ := FileTree.locate_of_isFile (FileTree.findSource_isFile probed)
      have located' := beside.tree.locate_iff.mp located'
      cases FileTree.locate_same here located' located
      have free := clear place located
      have isFile' : start.tree.isFile found = true := by
        rw [← beside.tree.isFile_eq (fun other located'' => ?_)]
        · exact FileTree.findSource_isFile probed
        · rw [located'] at located''
          cases located''
          exact free
      have reads := FileTree.outlineAt_twin (.inr ⟨here, isFile', isFile⟩)
      rw [← beside.tree.outlineAt_eq located' free, read, ← beside.tree.outlineAt_eq located free,
        ← outlineOf_new (here ▸ new)] at reads
      have recalled : outlineOf { l with known := (found.components, file) :: l.known } other = .ok file :=
        outlineOf_known (by rw [List.lookup_cons, ← here, beq_self_eq_true])
      refine (beside.outlines isFile clear).trans ?_
      rw [recalled]
      generalize l.outlineOf other = answer at reads
      cases reads with
      | ok both => exact .ok ⟨both.path.symm, both.statements.symm⟩
    · have kept : outlineOf { l with known := (found.components, file) :: l.known } other = l.outlineOf other := by
        unfold outlineOf
        dsimp only
        rw [List.lookup_cons, beq_eq_false_iff_ne.mpr (Ne.symm here)]
      rw [kept]
      exact beside.outlines isFile clear

theorem Beside.put (beside : start.Beside places l) (puts : l.tree.Puts t' path content place) :
    start.Beside (fun other => places other ∨ other = place) { l with tree := t' } := by
  refine ⟨beside.tree.trans puts.beside, fun {found} file clear => ?_⟩
  obtain ⟨other, located⟩ := FileTree.locate_of_isFile file
  have outside := not_or.mp (clear other located)
  have known := beside.outlines file fun place' located' inside => clear place' located' (.inl inside)
  have read : t'.outlineAt found = l.tree.outlineAt found :=
    puts.beside.outlineAt_eq (beside.tree.grown.locate located) outside.2
  have same : outlineOf { l with tree := t' } found = l.outlineOf found := by
    unfold outlineOf
    dsimp only
    rw [read]
  rw [same]
  exact known

end Library

end ComponentAtlas
