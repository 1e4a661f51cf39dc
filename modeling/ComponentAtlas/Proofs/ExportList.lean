import ComponentAtlas.Proofs.EnumerationRules
import ComponentAtlas.Proofs.WalkEnds

namespace ComponentAtlas
open Outline

namespace Ordered

variable {α : Type}

theorem get?_isSome_iff {m : Ordered α} : (m.get? key).isSome ↔ key ∈ m.keys := by
  rw [get?, keys, List.mem_map, List.lookup_isSome_iff]
  simp

theorem get?_eq_none_iff {m : Ordered α} : m.get? key = none ↔ key ∉ m.keys := by
  rw [← get?_isSome_iff, Option.not_isSome_iff_eq_none]

end Ordered

namespace ExportList

variable {l : ExportList}

theorem isTaken_of_get? (listed : l.classes.get? name = some c) : l.isTaken name = true := by
  rw [isTaken, Ordered.contains, listed]
  rfl

theorem insert_taken (taken : l.isTaken name = true) (c : ExportedClass) : l.insert name c = l := by
  rw [insert, if_pos taken]

theorem get?_insert_free (free : l.isTaken name = false) (c : ExportedClass) (other : String) :
    (l.insert name c).classes.get? other = if other = name then some c else l.classes.get? other := by
  rw [insert, if_neg (ne_true_of_eq_false free)]
  exact Ordered.get?_insert _ _ _ _

theorem isTaken_insert (l : ExportList) (name : String) (c : ExportedClass) (different : other ≠ name) :
    (l.insert name c).isTaken other = l.isTaken other := by
  cases free : l.isTaken name with
  | true => rw [insert_taken free]
  | false =>
    rw [isTaken, isTaken, Ordered.contains, Ordered.contains, get?_insert_free free, if_neg different, insert,
      if_neg (ne_true_of_eq_false free)]

theorem get?_insert (l : ExportList) (c : ExportedClass) (listed : l.classes.get? other = some c') :
    (l.insert name c).classes.get? other = some c' := by
  cases free : l.isTaken name with
  | true => rw [insert_taken free, listed]
  | false =>
    have different : other ≠ name := by
      rintro rfl
      rw [isTaken_of_get? listed] at free
      cases free
    rw [get?_insert_free free, if_neg different, listed]

theorem isTaken_fail (l : ExportList) (e : ResolveError) (different : other ≠ name) :
    (l.fail name e).isTaken other = l.isTaken other := by
  simp [isTaken, fail, Ne.symm different]

end ExportList

-- A class that is listed under a name, and where it stands: exported by the file it was found through, or
-- what the walk from there meets first.
structure View.Offers (v : View) (name : String) (c : ExportedClass) (x : Place) : Prop where
  holds : v.Holds x
  declared : (x.declaration? .classes).isSome
  declaredIn : x.file.path = c.declaredIn
  declaredName : x.name = c.declaredName
  origin : (x.file.path = c.via ∧ x.name = name ∧ name ∈ x.index.exportedClasses.keys) ∨
    FirstMatch v .classes [] (v.starts (.of name c.via)) (some x)

namespace ExportList

variable {v : View}

inductive Grows (v : View) (l : ExportList) : ExportList → Prop where
  | refl : Grows v l l
  | offer (earlier : Grows v l l') (offers : v.Offers name c x) : Grows v l (l'.insert name c)
  | fail (earlier : Grows v l l') : Grows v l (l'.fail name e)

theorem Grows.trans (one : Grows v l middle) (two : Grows v middle l') : Grows v l l' := by
  induction two with
  | refl => exact one
  | offer _ offers ih => exact .offer ih offers
  | fail _ ih => exact .fail ih

theorem Grows.keeps (grows : Grows v l l') (listed : l.classes.get? name = some c) :
    l'.classes.get? name = some c := by
  induction grows with
  | refl => exact listed
  | offer _ _ ih => exact get?_insert _ _ ih
  | fail _ ih => exact ih

theorem Grows.offered (grows : Grows v .empty l) (listed : l.classes.get? name = some c) : ∃ x, v.Offers name c x := by
  induction grows with
  | refl => cases listed
  | @offer l other c' x _ offers ih =>
    cases free : l.isTaken other with
    | true =>
      rw [insert_taken free] at listed
      exact ih listed
    | false =>
      rw [get?_insert_free free] at listed
      split at listed
      · rename_i same
        cases listed
        exact ⟨x, same ▸ offers⟩
      · exact ih listed
  | fail _ ih => exact ih listed

end ExportList

namespace Enumeration

variable {v : View}

theorem addClasses_cons (path : Path) (name : String) (names : List String) (l : ExportList) :
    addClasses path (name :: names) l =
      addClasses path names (l.insert name { via := path, declaredName := name, declaredIn := path }) := rfl

theorem addClasses_untouched (path : Path) (l : ExportList) (other : name ∉ names) :
    (addClasses path names l).isTaken name = l.isTaken name := by
  induction names generalizing l with
  | nil => rfl
  | cons first rest ih =>
    obtain ⟨different, other⟩ := not_or.mp fun either => other (List.mem_cons.mpr either)
    rw [addClasses_cons, ih _ other, ExportList.isTaken_insert _ _ _ different]

theorem addClasses_keeps (path : Path) (names : List String) (listed : l.classes.get? name = some c) :
    (addClasses path names l).classes.get? name = some c := by
  induction names generalizing l with
  | nil => exact listed
  | cons first rest ih => exact ih (ExportList.get?_insert _ _ listed)

theorem addClasses_get? (path : Path) (free : l.isTaken name = false) (member : name ∈ names) :
    (addClasses path names l).classes.get? name =
      some { via := path, declaredName := name, declaredIn := path } := by
  induction names generalizing l with
  | nil => cases member
  | cons first rest ih =>
    rw [addClasses_cons]
    by_cases same : name = first
    · subst same
      exact addClasses_keeps path rest (by rw [ExportList.get?_insert_free free, if_pos rfl])
    · refine ih ?_ ((List.mem_cons.mp member).resolve_left same)
      rw [ExportList.isTaken_insert _ _ _ same, free]

theorem exported_declaration? {x : Place} (member : x.name ∈ x.index.exportedClasses.keys) :
    ∃ d, x.declaration? .classes = some (.classDecl d) := by
  obtain ⟨d, got⟩ := Option.isSome_iff_exists.mp (Ordered.get?_isSome_iff.mpr member)
  exact ⟨d, by simp only [Place.declaration?, Index.local?, got, Option.some_or]⟩

theorem addClasses_grows (shown : v path = .ok (file, index)) (inside : names ⊆ index.exportedClasses.keys)
    (l : ExportList) : ExportList.Grows v l (addClasses file.path names l) := by
  induction names generalizing l with
  | nil => exact .refl
  | cons name rest ih =>
    obtain ⟨member, inside⟩ := List.cons_subset.mp inside
    obtain ⟨d, here⟩ := exported_declaration? (x := ({ file, index, name } : Place)) member
    have offers : v.Offers name { via := file.path, declaredName := name, declaredIn := file.path }
        { file, index, name } :=
      ⟨⟨path, shown⟩, by rw [here]; rfl, rfl, rfl, .inl ⟨rfl, rfl, member⟩⟩
    exact (ExportList.Grows.refl.offer offers).trans (ih inside _)

theorem settle_untouched (l : ExportList) (result : Except ResolveError Symbol) (different : name ≠ first) :
    (settle l first path result).isTaken name = l.isTaken name := by
  cases result with
  | ok symbol => exact ExportList.isTaken_insert _ _ _ different
  | error e =>
    rw [settle]
    split
    · rfl
    · exact ExportList.isTaken_fail _ _ different

theorem Reexported.untouched (reexported : Reexported v path names l notes l') (other : name ∉ names) :
    l'.isTaken name = l.isTaken name := by
  induction reexported with
  | done => rfl
  | taken _ _ ih => exact ih fun member => other (List.mem_cons_of_mem _ member)
  | tried _ _ _ ih =>
    obtain ⟨different, other⟩ := not_or.mp fun either => other (List.mem_cons.mpr either)
    rw [ih other, settle_untouched _ _ different]

theorem Reexported.grows (coherent : v.Coherent) (reexported : Reexported v path names l notes l') :
    ExportList.Grows v l l' := by
  induction reexported with
  | done => exact .refl
  | taken _ _ ih => exact ih
  | @tried name names l result after notes notes' l' free searched rest ih =>
    refine ExportList.Grows.trans ?_ ih
    cases result with
    | ok symbol =>
      have resolves : v.Resolves .classes (.of name path) (.ok symbol) := ⟨_, _, searched⟩
      obtain ⟨x, declaration, first, holds, here, rfl⟩ := resolves.first coherent
      exact .offer .refl ⟨holds, by rw [here]; rfl, rfl, rfl, .inr first⟩
    | error e =>
      rw [settle]
      split
      · exact .refl
      · exact .fail .refl

def Task.Shown (v : View) : Task → Prop
  | .file path index => ∃ other file, v other = .ok (file, index) ∧ file.path = path
  | _ => True

theorem Collected.grows (coherent : v.Coherent) (collected : Collected v task before l notes after l')
    (shown : task.Shown v) : ExportList.Grows v l l' := by
  induction collected with
  | again | done | unreadable => exact .refl
  | entered _ own _ ih =>
    obtain ⟨other, file, shown, rfl⟩ := shown
    exact ((addClasses_grows shown (List.Subset.refl _) _).trans (own.grows coherent)).trans (ih trivial)
  | file _ _ ihFirst ihLater => exact (ihFirst trivial).trans (ihLater trivial)
  | package _ ih => exact ih trivial
  | opened answered _ ih => exact ih ⟨_, _, answered, rfl⟩

theorem Collected.subset (collected : Collected v task before l notes after l') : before ⊆ after := by
  induction collected with
  | again | done | unreadable => exact List.Subset.refl _
  | entered _ _ _ ih => exact List.Subset.trans (List.subset_cons_self _ _) ih
  | file _ _ ihFirst ihLater => exact List.Subset.trans ihFirst ihLater
  | package _ ih | opened _ _ ih => exact ih

end Enumeration
end ComponentAtlas
