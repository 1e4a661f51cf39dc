import ComponentAtlas.Proofs.ExportList

namespace ComponentAtlas
open Outline

theorem filterMap_cons_append {α β : Type} (f : α → Option β) (x : α) (xs : List α) :
    (x :: xs).filterMap f = (f x).toList ++ xs.filterMap f := by
  rw [List.filterMap_eq_flatMap_toList, List.flatMap_cons, ← List.filterMap_eq_flatMap_toList]

-- Of the elements that share a key only the first, and none whose key was seen before.
def firsts {α κ : Type} [DecidableEq κ] (key : α → κ) : List κ → List α → List α
  | _, [] => []
  | seen, x :: xs => if key x ∈ seen then firsts key seen xs else x :: firsts key (key x :: seen) xs

section

variable {α κ : Type} [DecidableEq κ] {key : α → κ}

theorem firsts_append (seen : List κ) (xs ys : List α) :
    firsts key seen (xs ++ ys) =
      firsts key seen xs ++ firsts key (((firsts key seen xs).map key).reverse ++ seen) ys := by
  induction xs generalizing seen with
  | nil => rfl
  | cons x xs ih =>
    rw [List.cons_append, firsts, firsts]
    split
    · exact ih seen
    · rw [ih]
      simp

theorem firsts_seen (all : ∀ x ∈ xs, key x ∈ seen) : firsts key seen xs = [] := by
  induction xs with
  | nil => rfl
  | cons x xs ih =>
    obtain ⟨first, all⟩ := List.forall_mem_cons.mp all
    rw [firsts, if_pos first, ih all]

theorem firsts_fresh (member : x ∈ firsts key seen xs) : key x ∉ seen := by
  induction xs generalizing seen with
  | nil => cases member
  | cons y ys ih =>
    rw [firsts] at member
    split at member
    · exact ih member
    · rename_i fresh
      rcases List.mem_cons.mp member with rfl | later
      · exact fresh
      · exact fun present => ih later (List.mem_cons_of_mem _ present)

theorem firsts_nodup (key : α → κ) (seen : List κ) (xs : List α) : ((firsts key seen xs).map key).Nodup := by
  induction xs generalizing seen with
  | nil => exact List.nodup_nil
  | cons x xs ih =>
    rw [firsts]
    split
    · exact ih seen
    · refine List.nodup_cons.mpr ⟨fun again => ?_, ih _⟩
      obtain ⟨y, later, same⟩ := List.mem_map.mp again
      exact firsts_fresh later (same ▸ List.mem_cons_self)

theorem mem_of_mem_firsts (member : x ∈ firsts key seen xs) : x ∈ xs := by
  induction xs generalizing seen with
  | nil => exact member
  | cons y ys ih =>
    rw [firsts] at member
    split at member
    · exact List.mem_cons_of_mem _ (ih member)
    · rcases List.mem_cons.mp member with rfl | later
      · exact List.mem_cons_self
      · exact List.mem_cons_of_mem _ (ih later)

end

abbrev IndexedFile := SourceFile × Index

def IndexedFile.place (x : IndexedFile) : List Path.Component := x.1.path.components

namespace View

def Has (v : View) (x : IndexedFile) : Prop := ∃ path, v path = .ok x

-- Packages and files that cannot be opened lead nowhere.
def open? (v : View) : Target → Option IndexedFile
  | .package _ => none
  | .file path => (v path).toOption

def forwarded (v : View) (x : IndexedFile) : List IndexedFile := x.2.wildcards.filterMap v.open?

-- The files that users of a file see through wildcard re-exports, itself included.
def Forwards (v : View) : IndexedFile → IndexedFile → Prop :=
  Relation.ReflTransGen fun x y => y ∈ v.forwarded x

-- Every file when it is met, in front of what it forwards. `trail` is the path that the walk stands on.
inductive Tour (v : View) : List (List Path.Component) → List IndexedFile → List IndexedFile → Prop where
  | done : Tour v trail [] []
  | blocked (on : x.place ∈ trail) (rest : Tour v trail xs tour) : Tour v trail (x :: xs) tour
  | through (off : x.place ∉ trail) (below : Tour v (x.place :: trail) (v.forwarded x) branch)
      (rest : Tour v trail xs others) : Tour v trail (x :: xs) (x :: (branch ++ others))

variable {v : View}

theorem open?_has (opened : v.open? target = some x) : v.Has x := by
  cases target with
  | package => cases opened
  | file path =>
    refine ⟨path, ?_⟩
    rw [open?] at opened
    cases shown : v path with
    | error e => rw [shown] at opened; cases opened
    | ok answer => rw [shown] at opened; cases opened; rfl

theorem forwarded_has (member : y ∈ v.forwarded x) : v.Has y := by
  obtain ⟨_, _, opened⟩ := List.mem_filterMap.mp member
  exact open?_has opened

theorem Coherent.file_eq {x y : IndexedFile} (coherent : v.Coherent) (one : v.Has x) (two : v.Has y)
    (same : x.place = y.place) : x = y := by
  obtain ⟨path, shown⟩ := one
  obtain ⟨path', shown'⟩ := two
  obtain ⟨file, index⟩ := coherent.same shown shown' same
  exact Prod.ext file index

namespace Tour

theorem unique (one : Tour v trail xs tour) (two : Tour v trail xs tour') : tour = tour' := by
  induction one generalizing tour' with
  | done => cases two; rfl
  | blocked on _ ih =>
    cases two with
    | blocked _ rest => exact ih rest
    | through off => exact absurd on off
  | through off _ _ ihBelow ihRest =>
    cases two with
    | blocked on => exact absurd on off
    | through _ below rest => rw [ihBelow below, ihRest rest]

theorem append (one : Tour v trail xs tour) (two : Tour v trail ys tour') : Tour v trail (xs ++ ys) (tour ++ tour') := by
  induction one with
  | done => exact two
  | blocked on _ ih => exact .blocked on (ih two)
  | through off below _ _ ih =>
    rw [List.cons_append, List.cons_append, List.append_assoc]
    exact .through off below (ih two)

theorem forwards (toured : Tour v trail xs tour) (member : y ∈ tour) : ∃ x ∈ xs, v.Forwards x y := by
  induction toured with
  | done => cases member
  | blocked _ _ ih =>
    obtain ⟨x, inside, way⟩ := ih member
    exact ⟨x, List.mem_cons_of_mem _ inside, way⟩
  | through _ _ _ ihBelow ihRest =>
    rcases List.mem_cons.mp member with rfl | later
    · exact ⟨_, List.mem_cons_self, .refl⟩
    · rcases List.mem_append.mp later with inner | outer
      · obtain ⟨x, inside, way⟩ := ihBelow inner
        exact ⟨_, List.mem_cons_self, .head inside way⟩
      · obtain ⟨x, inside, way⟩ := ihRest outer
        exact ⟨x, List.mem_cons_of_mem _ inside, way⟩

end Tour

-- A visited file is on the trail, or all that it forwards has been visited too.
structure Passed (v : View) (trail seen : List (List Path.Component)) : Prop where
  entered : trail ⊆ seen
  closed : ∀ x, v.Has x → x.place ∈ seen → x.place ∉ trail → ∀ y ∈ v.forwarded x, y.place ∈ seen

theorem Passed.start : Passed v [] [] :=
  ⟨List.Subset.refl _, fun _ _ present => absurd present List.not_mem_nil⟩

theorem Passed.push (passed : Passed v trail seen) (place : List Path.Component) :
    Passed v (place :: trail) (place :: seen) := by
  refine ⟨List.cons_subset_cons _ passed.entered, fun x has present off y member => ?_⟩
  obtain ⟨new, off⟩ := not_or.mp fun either => off (List.mem_cons.mpr either)
  exact List.mem_cons_of_mem _ (passed.closed x has ((List.mem_cons.mp present).resolve_left new) off y member)

theorem Passed.pop (coherent : v.Coherent) (has : v.Has x) (passed : Passed v (x.place :: trail) seen)
    (all : ∀ y ∈ v.forwarded x, y.place ∈ seen) : Passed v trail seen := by
  refine ⟨List.Subset.trans (List.subset_cons_self _ _) passed.entered, fun y has' present off => ?_⟩
  by_cases same : y.place = x.place
  · obtain rfl := coherent.file_eq has' has same
    exact all
  · exact passed.closed y has' present fun on => off ((List.mem_cons.mp on).resolve_left same)

-- A tour from visited files stays among visited files. It may have gone on from the trail, so this holds
-- for every longer trail; each step uses up a visited file.
theorem Passed.tour (passed : Passed v trail seen) (longer : trail ⊆ trail')
    (visited : ∀ x ∈ xs, v.Has x ∧ x.place ∈ seen) :
    ∃ tour, Tour v trail' xs tour ∧ ∀ x ∈ tour, x.place ∈ seen := by
  induction measure : unused seen.toFinset trail' using Nat.strongRecOn generalizing trail' xs with
  | _ n ih =>
    induction xs with
    | nil => exact ⟨[], .done, nofun⟩
    | cons x xs ihRest =>
      obtain ⟨⟨has, present⟩, visited⟩ := List.forall_mem_cons.mp visited
      obtain ⟨outer, rest, inside⟩ := ihRest visited
      by_cases on : x.place ∈ trail'
      · exact ⟨outer, .blocked on rest, inside⟩
      · have all := passed.closed x has present fun member => on (longer member)
        have fewer : unused seen.toFinset (x.place :: trail') < n :=
          measure ▸ unused_cons_lt (List.mem_toFinset.mpr present) on
        obtain ⟨inner, below, inside'⟩ := ih _ fewer (List.Subset.trans longer (List.subset_cons_self _ _))
          (fun y member => ⟨forwarded_has member, all y member⟩) rfl
        refine ⟨_, .through on below rest, List.forall_mem_cons.mpr ⟨present, fun y member => ?_⟩⟩
        exact (List.mem_append.mp member).elim (inside' y) (inside y)

theorem Passed.forwards (passed : Passed v [] seen) (has : v.Has x) (present : x.place ∈ seen)
    (way : v.Forwards x y) : v.Has y ∧ y.place ∈ seen := by
  induction way with
  | refl => exact ⟨has, present⟩
  | tail _ step ih => exact ⟨forwarded_has step, passed.closed _ ih.1 ih.2 List.not_mem_nil _ step⟩

theorem Forwards.has (has : v.Has x) (way : v.Forwards x y) : v.Has y := by
  cases way with
  | refl => exact has
  | tail _ step => exact forwarded_has step

-- An enumeration that starts from some files goes through `files`: those of the tour, each where it is met
-- first, less the ones visited before.
structure Toured (v : View) (starts : List IndexedFile) (before : List (List Path.Component))
    (files : List IndexedFile) (after : List (List Path.Component)) : Prop where
  visited : after = (files.map IndexedFile.place).reverse ++ before
  met : ∀ x ∈ starts, x.place ∈ after
  order : ∀ trail, Passed v trail before → Passed v trail after ∧
    ∃ tour, Tour v trail starts tour ∧ firsts IndexedFile.place before tour = files

namespace Toured

theorem nowhere (v : View) (before : List (List Path.Component)) : Toured v [] before [] before :=
  ⟨rfl, nofun, fun _ passed => ⟨passed, [], .done, rfl⟩⟩

theorem again (has : v.Has x) (seen : x.place ∈ before) : Toured v [x] before [] before := by
  refine ⟨rfl, fun y member => List.mem_singleton.mp member ▸ seen, fun trail passed => ⟨passed, ?_⟩⟩
  obtain ⟨tour, toured, inside⟩ := passed.tour (List.Subset.refl _)
    fun y member => List.mem_singleton.mp member ▸ ⟨has, seen⟩
  exact ⟨tour, toured, firsts_seen inside⟩

theorem enter (coherent : v.Coherent) (has : v.Has x) (fresh : x.place ∉ before)
    (below : Toured v (v.forwarded x) (x.place :: before) files after) : Toured v [x] before (x :: files) after := by
  have visited : after = ((x :: files).map IndexedFile.place).reverse ++ before := by
    rw [below.visited]
    simp
  refine ⟨visited, fun y member => ?_, fun trail passed => ?_⟩
  · rw [List.mem_singleton.mp member, visited]
    simp
  · obtain ⟨passed', inner, toured, order⟩ := below.order _ (passed.push x.place)
    have off : x.place ∉ trail := fun on => fresh (passed.entered on)
    refine ⟨passed'.pop coherent has below.met, _, .through off toured .done, ?_⟩
    rw [List.append_nil, firsts, if_neg fresh, order]

theorem append (one : Toured v xs before files between) (two : Toured v ys between files' after) :
    Toured v (xs ++ ys) before (files ++ files') after := by
  refine ⟨?_, fun x member => ?_, fun trail passed => ?_⟩
  · rw [two.visited, one.visited]
    simp
  · rcases List.mem_append.mp member with first | second
    · rw [two.visited]
      exact List.mem_append_right _ (one.met x first)
    · exact two.met x second
  · obtain ⟨passed', tour, toured, order⟩ := one.order trail passed
    obtain ⟨passed'', tour', toured', order'⟩ := two.order trail passed'
    refine ⟨passed'', _, toured.append toured', ?_⟩
    rw [firsts_append, order, ← one.visited, order']

theorem mem_iff (coherent : v.Coherent) (has : v.Has x) (toured : Toured v [x] [] files after) :
    y ∈ files ↔ v.Forwards x y := by
  obtain ⟨passed, tour, walked, order⟩ := toured.order [] .start
  have forwards : ∀ z ∈ files, v.Forwards x z := by
    intro z member
    obtain ⟨start, only, way⟩ := walked.forwards (mem_of_mem_firsts (order ▸ member))
    rwa [List.mem_singleton.mp only] at way
  refine ⟨forwards y, fun way => ?_⟩
  obtain ⟨has', present⟩ := passed.forwards has (toured.met x List.mem_cons_self) way
  rw [toured.visited, List.append_nil, List.mem_reverse] at present
  obtain ⟨z, member, same⟩ := List.mem_map.mp present
  rwa [← coherent.file_eq ((forwards z member).has has) has' same]

end Toured
end View

namespace Enumeration

variable {v : View}

-- Files that offer their names one after the other.
inductive Scanned (v : View) : List IndexedFile → ExportList → List Diagnostic → ExportList → Prop where
  | done : Scanned v [] l [] l
  | file {x : IndexedFile} (own : Reexported v x.1.path x.2.reexports.keys
        (addClasses x.1.path x.2.exportedClasses.keys l) notes middle)
      (rest : Scanned v xs middle notes' l') : Scanned v (x :: xs) l (notes ++ notes') l'

theorem Scanned.append (one : Scanned v xs l notes middle) (two : Scanned v ys middle notes' l') :
    Scanned v (xs ++ ys) l (notes ++ notes') l' := by
  induction one with
  | done => exact two
  | file own _ ih =>
    rw [List.append_assoc]
    exact .file own (ih two)

def Task.Starts (v : View) : Task → List IndexedFile → Prop
  | .file path index, xs => ∃ x, v.Has x ∧ x.1.path = path ∧ x.2 = index ∧ xs = [x]
  | .targets _ ways, xs => xs = ways.filterMap v.open?
  | .visit path, xs => xs = (v.open? (.file path)).toList

-- The diagnostics of an enumeration and those that its scan accounts for; the others are about targets
-- that it does not follow.
structure Reported (own notes : List Diagnostic) : Prop where
  inside : own ⊆ notes
  unfollowed : ∀ note ∈ notes, note.kind = .unfollowedExport → note ∈ own

namespace Reported

theorem refl (notes : List Diagnostic) : Reported notes notes := ⟨List.Subset.refl _, fun _ member _ => member⟩

theorem append (one : Reported own notes) (two : Reported own' notes') : Reported (own ++ own') (notes ++ notes') := by
  constructor
  · intro note member
    exact List.mem_append.mpr ((List.mem_append.mp member).imp (one.inside ·) (two.inside ·))
  · intro note member unfollowed
    exact List.mem_append.mpr
      ((List.mem_append.mp member).imp (one.unfollowed note · unfollowed) (two.unfollowed note · unfollowed))

theorem cons (other : note.kind ≠ .unfollowedExport) (rest : Reported own notes) : Reported own (note :: notes) := by
  refine ⟨List.subset_cons_of_subset _ rest.inside, fun note' member unfollowed => ?_⟩
  rcases List.mem_cons.mp member with rfl | later
  · exact absurd unfollowed other
  · exact rest.unfollowed note' later unfollowed

end Reported

-- The recursion of an enumeration with its visited list is a scan over the files of the tour.
theorem Collected.scanned (coherent : v.Coherent) (collected : Collected v task before l notes after l')
    (starts : task.Starts v xs) :
    ∃ files own, Scanned v files l own l' ∧ Reported own notes ∧ v.Toured xs before files after := by
  induction collected generalizing xs with
  | again seen =>
    obtain ⟨x, has, rfl, rfl, rfl⟩ := starts
    exact ⟨[], [], .done, .refl _, .again has seen⟩
  | entered fresh own rest ih =>
    obtain ⟨x, has, rfl, rfl, rfl⟩ := starts
    obtain ⟨files, notes, scanned, reported, toured⟩ := ih rfl
    exact ⟨x :: files, _, .file own scanned, .append (.refl _) reported, toured.enter coherent has fresh⟩
  | done =>
    obtain rfl := starts
    exact ⟨[], [], .done, .refl _, .nowhere v _⟩
  | file first later ihFirst ihLater =>
    obtain rfl := starts
    obtain ⟨files, notes, scanned, reported, toured⟩ := ihFirst rfl
    obtain ⟨files', notes', scanned', reported', toured'⟩ := ihLater rfl
    refine ⟨files ++ files', _, scanned.append scanned', reported.append reported', ?_⟩
    rw [filterMap_cons_append]
    exact toured.append toured'
  | package later ih =>
    obtain ⟨files, notes, scanned, reported, toured⟩ := ih starts
    exact ⟨files, notes, scanned, reported.cons nofun, toured⟩
  | unreadable shown =>
    obtain rfl := starts
    refine ⟨[], [], .done, .cons nofun (.refl _), ?_⟩
    rw [View.open?, shown]
    exact .nowhere v _
  | opened shown rest ih =>
    obtain rfl := starts
    refine ih ⟨_, ⟨_, shown⟩, rfl, rfl, ?_⟩
    rw [View.open?, shown]
    rfl

end Enumeration
end ComponentAtlas
