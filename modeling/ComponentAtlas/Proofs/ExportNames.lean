import ComponentAtlas.Proofs.DescriptorMirror
import ComponentAtlas.Proofs.ExportMeaning

namespace ComponentAtlas
open Outline

namespace Enumeration

variable {σ : Type} {p : Provider σ} {P : ExportList → Prop}

-- What a file has of itself is added to a list that has its classes already.
def entered (path : Path) (index : Index) (s : Enumeration σ) : Enumeration σ :=
  { s with visited := path.components :: s.visited, found := addClasses path index.exportedClasses.keys s.found }

-- The lists that a part of an enumeration goes through, also if it has no end: the one that it starts with, one more
-- after each class and each named re-export of a file, and those of the targets in their turn.
inductive Stage (p : Provider σ) : Task → Enumeration σ → ExportList → Prop where
  | start {task s} : Stage p task s s.found
  | finish {task s s'} (ran : run p task s = some s') : Stage p task s s'.found
  | classes {path index s names} (fresh : path.components ∉ s.visited)
      (front : names <+: index.exportedClasses.keys) : Stage p (.file path index) s (addClasses path names s.found)
  | reexports {path index s names s'} (fresh : path.components ∉ s.visited) (front : names <+: index.reexports.keys)
      (added : names.foldlM (addReexport p path) (s.entered path index) = some s') :
      Stage p (.file path index) s s'.found
  | own {path index s s' l} (fresh : path.components ∉ s.visited) (added : addOwn p path index s = some s')
      (later : Stage p (.targets path index.wildcards) s' l) : Stage p (.file path index) s l
  | first {path target rest s l} (now : Stage p (.visit target) s l) :
      Stage p (.targets path (.file target :: rest)) s l
  | next {path target rest s s' l} (visited : visit p target s = some s')
      (later : Stage p (.targets path rest) s' l) : Stage p (.targets path (.file target :: rest)) s l
  | package {path package rest s l} (later : Stage p (.targets path rest) (passPackage path package s) l) :
      Stage p (.targets path (.package package :: rest)) s l
  | opened {path file index s w l} (answered : s.work.openFile p path = (.ok (file, index), w))
      (now : Stage p (.file file.path index) { s with work := w } l) : Stage p (.visit path) s l

theorem Stage.kept (kept : ExportList.Kept P) (stage : Stage p task s l) (holds : P s.found) : P l := by
  induction stage with
  | start => exact holds
  | finish ran => exact run_kept kept _ holds ran
  | classes _ _ => exact addClasses_kept kept _ _ holds
  | reexports _ _ added => exact addReexports_kept kept (addClasses_kept kept _ _ holds) added
  | own _ added _ ih => exact ih (addReexports_kept kept (addClasses_kept kept _ _ holds) added)
  | first _ ih | package _ ih | opened _ _ ih => exact ih holds
  | next visited _ ih => exact ih (run_kept kept (.visit _) holds visited)

end Enumeration

namespace ExportList

inductive Reached : ExportList → Prop where
  | empty : Reached .empty
  | insert (earlier : Reached l) : Reached (l.insert name c)
  | fail (earlier : Reached l) : Reached (l.fail name e)

variable {l : ExportList}

theorem reached_kept : Kept Reached := ⟨fun earlier _ _ => .insert earlier, fun earlier _ _ => .fail earlier⟩

theorem Reached.namesFirst (reached : Reached l) : l.NamesFirst := by
  induction reached with
  | empty => exact fun _ => rfl
  | insert _ ih => exact namesFirst_kept.insert ih _ _
  | fail _ ih => exact ih

def Declares (place : Path) (name : String) (entry : String × ExportedClass) : Prop :=
  entry.2.declaredIn.Same place ∧ entry.2.declaredName = name

instance (place : Path) (name : String) : DecidablePred (Declares place name) := fun entry =>
  inferInstanceAs (Decidable (entry.2.declaredIn.Same place ∧ entry.2.declaredName = name))

theorem declares_iff : Declares place name entry ↔ entry.2.hop = Hop.of place name := by
  rw [ExportedClass.hop, Hop.of, Hop.of, Hop.mk.injEq]
  rfl

theorem Reached.exportedName?_eq (reached : Reached l) (place : Path) (name : String) :
    l.exportedName? place name = (l.classes.entries.find? (Declares place name ·)).map (·.1) := by
  have same : (fun entry : String × ExportedClass => decide (Declares place name entry)) =
      fun entry => decide (entry.2.hop = Hop.of place name) :=
    funext fun entry => decide_eq_decide.mpr declares_iff
  rw [exportedName?, reached.namesFirst, firstName?, same]

end ExportList

-- The lists that an enumeration goes through from an entry, the one that it ends with among them.
def ExportStage {σ : Type} (p : Provider σ) (entry : Path) (w : Work σ) (l : ExportList) : Prop :=
  ∃ file index work, w.openFile p entry = (.ok (file, index), work) ∧
    Enumeration.Stage p (.file file.path index) { work, visited := [], found := .empty } l

section

variable {σ : Type} {p : Provider σ} {w w' : Work σ} {l : ExportList}

theorem ExportStage.reached (stage : ExportStage p entry w l) : l.Reached := by
  obtain ⟨file, index, work, -, inner⟩ := stage
  exact inner.kept ExportList.reached_kept .empty

theorem exportStage_of_enumerated (enumerated : exportedClasses p entry w = some (.ok l, w')) :
    ExportStage p entry w l := by
  unfold exportedClasses at enumerated
  split at enumerated
  · cases enumerated
  · rename_i file index work opened
    obtain ⟨s, ran, equal⟩ := Option.bind_eq_some_iff.mp enumerated
    cases equal
    exact ⟨file, index, work, opened, .finish ran⟩

end

-- Whatever an enumeration has listed and failed so far, a declaration goes to the first name in the list that stands
-- for it, and every class in the list to such a name.
theorem exportedName?_inverse {σ : Type} (p : Provider σ) (entry : Path) (w : Work σ) :
    (∀ l w', exportedClasses p entry w = some (.ok l, w') → ExportStage p entry w l) ∧
    (∀ l, ExportStage p entry w l → l.Reached) ∧
    ∀ l : ExportList, l.Reached →
      (∀ place name, l.exportedName? place name =
        (l.classes.entries.find? (ExportList.Declares place name ·)).map (·.1)) ∧
      ∀ name c, (name, c) ∈ l.classes.entries → ∃ first other,
        l.exportedName? c.declaredIn c.declaredName = some first ∧ (first, other) ∈ l.classes.entries ∧
          ExportList.Declares c.declaredIn c.declaredName (first, other) := by
  refine ⟨fun l w' => exportStage_of_enumerated, fun l => ExportStage.reached, fun l reached => ?_⟩
  refine ⟨reached.exportedName?_eq, fun name c listed => ?_⟩
  obtain ⟨⟨first, other⟩, found⟩ : ∃ found, l.classes.entries.find?
      (ExportList.Declares c.declaredIn c.declaredName ·) = some found := by
    refine Option.isSome_iff_exists.mp (List.find?_isSome.mpr ⟨(name, c), listed, ?_⟩)
    exact decide_eq_true ⟨rfl, rfl⟩
  have declares : ExportList.Declares c.declaredIn c.declaredName (first, other) := by
    simpa using List.find?_some found
  refine ⟨first, other, ?_, List.mem_of_find?_eq_some found, declares⟩
  rw [reached.exportedName?_eq, found]
  rfl

-- An entry that has a class under two names, behind a name that cannot be found.
def renamer : SourceFile :=
  .ofForms "index.ts"
    [ .exportNamed [{ name := "Gone", otherName := none, range := default }] (some "./gone.ts"),
      .exportNamed
        [ { name := "Widget", otherName := some "Gadget", range := default },
          { name := "Widget", otherName := none, range := default } ] (some "./lib.ts") ]

theorem exportedName?_inverse_renamer : ∃ l w',
    exportedClasses (.ofFiles [renamer, lender]) ⟨"index.ts"⟩ (.start ()) = some (.ok l, w') ∧
      l.classes.keys = ["Gadget", "Widget"] ∧ l.failed.map (·.1) = ["Gone"] ∧
      l.exportedName? ⟨"lib.ts/"⟩ "Widget" = some "Gadget" ∧ l.exportedName? ⟨"lib.ts"⟩ "Gadget" = none := by
  have seen : (exportedClassesWithin 20 (.ofFiles [renamer, lender]) ⟨"index.ts"⟩ (.start ())).map
      (·.1.toOption.map fun l =>
        decide (l.classes.keys = ["Gadget", "Widget"] ∧ l.failed.map (·.1) = ["Gone"] ∧
          (l.classes.entries.find? (ExportList.Declares ⟨"lib.ts/"⟩ "Widget" ·)).map (·.1) = some "Gadget" ∧
          (l.classes.entries.find? (ExportList.Declares ⟨"lib.ts"⟩ "Gadget" ·)).map (·.1) = none)) =
      some (some true) := by
    decide +kernel
  obtain ⟨⟨result, w'⟩, ended, shown⟩ := Option.map_eq_some_iff.mp seen
  cases result with
  | error e => cases shown
  | ok l =>
    obtain ⟨keys, failed, first, none⟩ := of_decide_eq_true (Option.some.inj shown)
    have enumerated := exportedClassesWithin_completes _ _ _ _ _ ended
    obtain ⟨last, reached, inverse⟩ := exportedName?_inverse (.ofFiles [renamer, lender]) ⟨"index.ts"⟩ (.start ())
    obtain ⟨names, -⟩ := inverse l (reached l (last l w' enumerated))
    exact ⟨l, w', enumerated, keys, failed, (names _ _).trans first, (names _ _).trans none⟩

end ComponentAtlas
