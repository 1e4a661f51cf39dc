import ComponentAtlas.Proofs.ExportOffers
import ComponentAtlas.Proofs.Linking
import Mathlib.Data.Set.Card

namespace ComponentAtlas
open Outline

-- A record of what is new and distinct, and what a run has added to the visited things with it.
structure Fresh {α : Type} (before record after : List α) : Prop where
  distinct : record.Nodup
  new : ∀ x ∈ record, x ∉ before
  visited : ∀ x, x ∈ after ↔ x ∈ record ∨ x ∈ before

namespace Fresh

variable {α : Type} {before between after record more : List α}

theorem none (before : List α) : Fresh before [] before := ⟨.nil, nofun, by simp⟩

theorem enter (fresh : x ∉ before) (rest : Fresh (x :: before) record after) : Fresh before (x :: record) after := by
  refine ⟨List.nodup_cons.mpr ⟨fun again => rest.new x again List.mem_cons_self, rest.distinct⟩, ?_, ?_⟩
  · intro y member inside
    rcases List.mem_cons.mp member with rfl | later
    · exact fresh inside
    · exact rest.new y later (List.mem_cons_of_mem _ inside)
  · intro y
    rw [rest.visited, List.mem_cons, List.mem_cons]
    tauto

theorem append (one : Fresh before record between) (two : Fresh between more after) :
    Fresh before (record ++ more) after := by
  refine ⟨List.nodup_append'.mpr ⟨one.distinct, two.distinct, ?_⟩, ?_, ?_⟩
  · intro x early late
    exact two.new x late ((one.visited x).mpr (.inl early))
  · intro x member inside
    rcases List.mem_append.mp member with early | late
    · exact one.new x early inside
    · exact two.new x late ((one.visited x).mpr (.inr inside))
  · intro x
    rw [two.visited, one.visited, List.mem_append]
    tauto

end Fresh

namespace Search

variable {σ : Type} {p : Provider σ} {request : Request}

mutual

def lookupCounted (p : Provider σ) (request : Request) (name : String) (path : Path) (s : Search σ) :
    Option (Result σ × List Hop) :=
  match s.work.openFile p path with
  | (.error e, work) => some ((.error e, { s with work }), [])
  | (.ok (file, index), work) =>
    let s := { s with work }
    if Hop.of file.path name ∈ s.visited then
      some ((.error (.symbolNotFound name file.path),
        s.report .revisitedReference file.path s!"'{name}' was already visited in this resolution"), [])
    else s.enter name file.path |>.expandCounted p request name file index
partial_fixpoint

-- Every expansion puts its hop on record, before those that it leads to.
def expandCounted (p : Provider σ) (request : Request) (name : String) (file : SourceFile) (index : Index)
    (s : Search σ) : Option (Result σ × List Hop) :=
  match index.local? request.kinds name with
  | some declaration =>
    some ((.ok (request.symbol name file.path declaration), s), [Hop.of file.path name])
  | none =>
    match (index.imports.get? name).or (index.reexports.get? name) with
    | some binding => do
      let (r, hops) ← s |>.followCounted p request binding.name binding.target file.path
      some (r, Hop.of file.path name :: hops)
    | none => do
      match ← s |>.firstOfCounted p request name file.path index.wildcards with
      | ((some symbol, s), hops) => some ((.ok symbol, s), Hop.of file.path name :: hops)
      | ((none, s), hops) =>
        some ((.error (.symbolNotFound name file.path), noteUnfollowed index name file.path s),
          Hop.of file.path name :: hops)
partial_fixpoint

def firstOfCounted (p : Provider σ) (request : Request) (name : String) (referrer : Path) (targets : List Target)
    (s : Search σ) : Option ((Option Symbol × Search σ) × List Hop) :=
  match targets with
  | [] => some ((none, s), [])
  | target :: rest => do
    match ← s |>.followCounted p request name target referrer with
    | ((.ok symbol, s), hops) => some ((some symbol, s), hops)
    | ((.error e, s), hops) => do
      let (r, more) ← passOver name referrer e s |>.firstOfCounted p request name referrer rest
      some (r, hops ++ more)
partial_fixpoint

def followCounted (p : Provider σ) (request : Request) (name : String) (target : Target) (referrer : Path)
    (s : Search σ) : Option (Result σ × List Hop) :=
  match target with
  | .file path => s |>.lookupCounted p request name path
  | .package package =>
    some ((.error (.symbolNotFound name referrer),
      s.report .packageTarget referrer s!"'{name}' comes from package '{package}', which is not followed"), [])
partial_fixpoint

end

theorem passOver_visited (name : String) (referrer : Path) (e : ResolveError) (s : Search σ) :
    (passOver name referrer e s).visited = s.visited := (noted_passOver name referrer e s).visited

-- The record changes nothing, and its hops are new. Along the recursion of the search; an expansion finds its own
-- hop entered already, so its record is told from what was entered before that.
theorem lookup_counted (ran : lookup p request name path s = some r) :
    ∃ hops, lookupCounted p request name path s = some (r, hops) ∧ Fresh s.visited hops r.2.visited := by
  refine (lookup.mutual_partial_correctness p request
    (fun name path s r => ∃ hops, lookupCounted p request name path s = some (r, hops) ∧
      Fresh s.visited hops r.2.visited)
    (fun name file index s r => ∃ hops, expandCounted p request name file index s =
      some (r, Hop.of file.path name :: hops) ∧ Fresh s.visited hops r.2.visited)
    (fun name referrer targets s r => ∃ hops, firstOfCounted p request name referrer targets s = some (r, hops) ∧
      Fresh s.visited hops r.2.visited)
    (fun name target referrer s r => ∃ hops, followCounted p request name target referrer s = some (r, hops) ∧
      Fresh s.visited hops r.2.visited)
    ?_ ?_ ?_ ?_).1 _ _ _ _ ran
  · intro expand ih name path s r ran
    rw [lookupCounted]
    generalize s.work.openFile p path = opened at ran ⊢
    obtain ⟨result, work⟩ := opened
    cases result with
    | error e =>
      cases ran
      exact ⟨_, rfl, .none _⟩
    | ok answer =>
      obtain ⟨file, index⟩ := answer
      dsimp only at ran ⊢
      by_cases seen : Hop.of file.path name ∈ s.visited
      · rw [if_pos seen] at ran ⊢
        cases ran
        exact ⟨_, rfl, .none _⟩
      · rw [if_neg seen] at ran ⊢
        obtain ⟨hops, counted, record⟩ := ih _ _ _ _ _ ran
        exact ⟨_, counted, record.enter seen⟩
  · intro firstOf follow ihFirst ihFollow name file index s r ran
    rw [expandCounted]
    generalize index.local? request.kinds name = here at ran ⊢
    cases here with
    | some declaration =>
      cases ran
      exact ⟨_, rfl, .none _⟩
    | none =>
      dsimp only at ran ⊢
      generalize (index.imports.get? name).or (index.reexports.get? name) = bound at ran ⊢
      cases bound with
      | some binding =>
        obtain ⟨hops, counted, record⟩ := ihFollow _ _ _ _ _ ran
        dsimp only
        rw [counted]
        exact ⟨_, rfl, record⟩
      | none =>
        obtain ⟨⟨found, middle⟩, first, ran⟩ := Option.bind_eq_some_iff.mp ran
        obtain ⟨hops, counted, record⟩ := ihFirst _ _ _ _ _ first
        dsimp only
        rw [counted]
        cases found with
        | some symbol =>
          cases ran
          exact ⟨_, rfl, record⟩
        | none =>
          cases ran
          refine ⟨_, rfl, ?_⟩
          rw [(noted_unfollowed index name file.path middle).visited]
          exact record
  · intro firstOf follow ihFirst ihFollow name referrer targets s r ran
    rw [firstOfCounted.eq_def]
    split at ran
    · cases ran
      exact ⟨_, rfl, .none _⟩
    · obtain ⟨⟨result, middle⟩, one, ran⟩ := Option.bind_eq_some_iff.mp ran
      obtain ⟨hops, counted, record⟩ := ihFollow _ _ _ _ _ one
      dsimp only
      rw [counted]
      cases result with
      | ok symbol =>
        cases ran
        exact ⟨_, rfl, record⟩
      | error e =>
        obtain ⟨more, counted', record'⟩ := ihFirst _ _ _ _ _ ran
        rw [passOver_visited] at record'
        simp only [Option.bind_eq_bind, Option.bind_some, counted']
        exact ⟨_, rfl, record.append record'⟩
  · intro lookup ih name target referrer s r ran
    rw [followCounted.eq_def]
    split at ran
    · exact ih _ _ _ _ ran
    · cases ran
      exact ⟨_, rfl, .none _⟩

end Search

def resolveCounted {σ : Type} (p : Provider σ) (kinds : KindFilter) (reference : Reference) (w : Work σ) :
    Option ((Except ResolveError Symbol × Work σ) × List Hop) := do
  let request : Request := { kinds, origin := reference }
  let ((result, s), hops) ← Search.lookupCounted p request reference.name reference.file { work := w, visited := [] }
  return ((result, s.work), hops)

theorem resolve_counted {σ : Type} {p : Provider σ} {w : Work σ} {r : Except ResolveError Symbol × Work σ}
    (resolved : resolve p kinds reference w = some r) :
    ∃ hops : List Hop, resolveCounted p kinds reference w = some (r, hops) ∧ hops.Nodup := by
  obtain ⟨⟨result, s⟩, ran, equal⟩ := Option.bind_eq_some_iff.mp resolved
  cases equal
  obtain ⟨hops, counted, record⟩ := Search.lookup_counted ran
  exact ⟨hops, by rw [resolveCounted, counted]; rfl, record.distinct⟩

namespace Enumeration

variable {σ : Type} {p : Provider σ}

mutual

def addFileCounted (p : Provider σ) (path : Path) (index : Index) (s : Enumeration σ) :
    Option (Enumeration σ × List (List Path.Component)) :=
  if s.visited.contains path.components then some (s, [])
  else do
    let (s, files) ← (← addOwn p path index s) |>.addTargetsCounted p path index.wildcards
    some (s, path.components :: files)
partial_fixpoint

def addTargetsCounted (p : Provider σ) (path : Path) (targets : List Target) (s : Enumeration σ) :
    Option (Enumeration σ × List (List Path.Component)) :=
  match targets with
  | [] => some (s, [])
  | .file target :: rest => do
    let (s, files) ← s |>.visitCounted p target
    let (s, more) ← s |>.addTargetsCounted p path rest
    some (s, files ++ more)
  | .package package :: rest => passPackage path package s |>.addTargetsCounted p path rest
partial_fixpoint

def visitCounted (p : Provider σ) (path : Path) (s : Enumeration σ) :
    Option (Enumeration σ × List (List Path.Component)) :=
  match s.work.openFile p path with
  | (.error e, work) =>
    some ({ s with
      work := work.report .suppressedWildcardTarget path s!"wildcard target skipped: {e.message}" }, [])
  | (.ok (file, index), work) => { s with work } |>.addFileCounted p file.path index
partial_fixpoint

end

theorem addReexports_visited {s s' : Enumeration σ} {names : List String}
    (added : names.foldlM (addReexport p path) s = some s') : s'.visited = s.visited := by
  induction names generalizing s with
  | nil =>
    cases added
    rfl
  | cons name rest ih =>
    obtain ⟨middle, one, added⟩ := Option.bind_eq_some_iff.mp added
    rw [ih added]
    unfold addReexport at one
    split at one
    · cases one
      rfl
    · obtain ⟨⟨result, work⟩, -, one⟩ := Option.bind_eq_some_iff.mp one
      cases result with
      | ok symbol =>
        cases one
        rfl
      | error e =>
        dsimp only at one
        split at one <;> cases one <;> rfl

theorem addFile_counted {s s' : Enumeration σ} (added : s.addFile p path index = some s') :
    ∃ files, s.addFileCounted p path index = some (s', files) ∧ Fresh s.visited files s'.visited := by
  refine (addFile.mutual_partial_correctness p
    (fun path index s s' => ∃ files, s.addFileCounted p path index = some (s', files) ∧
      Fresh s.visited files s'.visited)
    (fun path targets s s' => ∃ files, s.addTargetsCounted p path targets = some (s', files) ∧
      Fresh s.visited files s'.visited)
    (fun path s s' => ∃ files, s.visitCounted p path = some (s', files) ∧ Fresh s.visited files s'.visited)
    ?_ ?_ ?_).1 _ _ _ _ added
  · intro addTargets ih path index s s' added
    rw [addFileCounted]
    by_cases seen : path.components ∈ s.visited
    · rw [if_pos seen] at added
      rw [if_pos (List.contains_iff_mem.mpr seen)]
      cases added
      exact ⟨_, rfl, .none _⟩
    · rw [if_neg seen] at added
      rw [if_neg (mt List.contains_iff_mem.mp seen)]
      obtain ⟨middle, own, added⟩ := Option.bind_eq_some_iff.mp added
      obtain ⟨files, counted, record⟩ := ih _ _ _ _ added
      rw [addReexports_visited own] at record
      simp only [Option.bind_eq_bind, own, Option.bind_some, counted]
      exact ⟨_, rfl, record.enter seen⟩
  · intro addTargets visit ihTargets ihVisit path targets s s' added
    rw [addTargetsCounted.eq_def]
    split at added
    · cases added
      exact ⟨_, rfl, .none _⟩
    · obtain ⟨middle, one, added⟩ := Option.bind_eq_some_iff.mp added
      obtain ⟨files, counted, record⟩ := ihVisit _ _ _ one
      obtain ⟨more, counted', record'⟩ := ihTargets _ _ _ _ added
      simp only [Option.bind_eq_bind, counted, Option.bind_some, counted']
      exact ⟨_, rfl, record.append record'⟩
    · exact ihTargets _ _ _ _ added
  · intro addFile ih path s s' added
    rw [visitCounted]
    generalize s.work.openFile p path = opened at added ⊢
    obtain ⟨result, work⟩ := opened
    cases result with
    | error e =>
      cases added
      exact ⟨_, rfl, .none _⟩
    | ok answer => exact ih _ _ _ _ added

end Enumeration

def exportedClassesCounted {σ : Type} (p : Provider σ) (entry : Path) (w : Work σ) :
    Option ((Except ResolveError ExportList × Work σ) × List (List Path.Component)) :=
  match w.openFile p entry with
  | (.error e, work) => some ((.error e, work), [])
  | (.ok (file, index), work) => do
    let (s, files) ← Enumeration.addFileCounted p file.path index { work, visited := [], found := .empty }
    return ((.ok s.found, s.work), files)

theorem exportedClasses_counted {σ : Type} {p : Provider σ} {w : Work σ} {r : Except ResolveError ExportList × Work σ}
    (enumerated : exportedClasses p entry w = some r) :
    ∃ files : List (List Path.Component), exportedClassesCounted p entry w = some (r, files) ∧ files.Nodup := by
  unfold exportedClasses at enumerated
  unfold exportedClassesCounted
  generalize w.openFile p entry = opened at enumerated ⊢
  obtain ⟨result, work⟩ := opened
  cases result with
  | error e =>
    cases enumerated
    exact ⟨_, rfl, .nil⟩
  | ok answer =>
    obtain ⟨s, added, equal⟩ := Option.bind_eq_some_iff.mp enumerated
    cases equal
    obtain ⟨files, counted, record⟩ := Enumeration.addFile_counted added
    dsimp only
    rw [counted]
    exact ⟨_, rfl, record.distinct⟩

theorem exportedClasses_ends {σ : Type} {p : Provider σ} {within : σ → Prop} {v : View} {w : Work σ}
    (shows : p.Shows within v) (coherent : v.Coherent) (finite : v.places.Finite) (known : within w.state) (entry : Path) :
    ∃ r, exportedClasses p entry w = some r := by
  cases shown : v entry with
  | error e =>
    obtain ⟨w', enumerated⟩ := exportedClasses_unreadable shows known shown
    exact ⟨_, enumerated⟩
  | ok answer =>
    obtain ⟨notes, after, l, collected⟩ := Enumeration.file_ends coherent finite shown [] .empty
    obtain ⟨w', enumerated, -⟩ := collected_exportedClasses shows known shown collected
    exact ⟨_, enumerated⟩

def View.declared (v : View) : Set Hop :=
  {hop | ∃ x, v.Holds x ∧ (x.declaration? .classesAndInterfaces).isSome ∧ x.hop = hop}

namespace Link

variable {σ : Type} {p : Provider σ} {v : View} {keys : Set Hop}

-- One call: how deep it is in the recursion, and the stack of ancestors that it finds and that it leaves.
structure Visit where
  depth : Nat
  found : List Hop
  left : List Hop

structure Visit.Orderly (keys : Set Hop) (visit : Visit) : Prop where
  distinct : visit.found.Nodup
  restored : visit.left = visit.found
  level : visit.depth = visit.found.length
  inside : ∀ hop ∈ visit.found, hop ∈ keys

-- One stack of ancestors for all calls, and the calls that have returned.
structure Stacked (σ : Type) where
  work : Work σ
  ancestry : List Hop
  visits : List Visit

namespace Stacked

def push (hop : Hop) (s : Stacked σ) : Stacked σ := { s with ancestry := s.ancestry ++ [hop] }

def pop (s : Stacked σ) : Stacked σ := { s with ancestry := s.ancestry.dropLast }

-- The return of a call that found the stack `found`.
def leave (depth : Nat) (found : List Hop) (s : Stacked σ) : Stacked σ :=
  { s with visits := { depth, found, left := s.ancestry } :: s.visits }

mutual

def link (p : Provider σ) (depth : Nat) (symbol : Symbol) (s : Stacked σ) :
    Option (Except ResolveError Lineage × Stacked σ) :=
  if symbol.hop ∈ s.ancestry then some (.error (cyclic s.ancestry symbol), s.leave depth s.ancestry)
  else do
    match ← s.push symbol.hop |>.linkAll p (depth + 1) symbol (edges symbol.declaration) with
    | (.error e, after) => some (.error e, after.pop.leave depth s.ancestry)
    | (.ok parents, after) =>
      let lineage := Lineage.ofParents symbol parents
      some (.ok lineage, { after.pop with work := noteLinked lineage after.work }.leave depth s.ancestry)
partial_fixpoint

def linkAll (p : Provider σ) (depth : Nat) (child : Symbol) (edges : List Edge) (s : Stacked σ) :
    Option (Except ResolveError (List Lineage) × Stacked σ) :=
  match edges with
  | [] => some (.ok [], s)
  | edge :: rest => do
    match ← s |>.linkParent p depth child edge with
    | (.error e, s) => some (.error e, s)
    | (.ok parent, s) =>
      match ← s |>.linkAll p depth child rest with
      | (.error e, s) => some (.error e, s)
      | (.ok parents, s) => some (.ok (parent :: parents), s)
partial_fixpoint

def linkParent (p : Provider σ) (depth : Nat) (child : Symbol) (edge : Edge) (s : Stacked σ) :
    Option (Except ResolveError Lineage × Stacked σ) := do
  match ← resolveHeritage p child.reference edge s.work with
  | (.error e, work) => some (.error e, { s with work })
  | (.ok parent, work) =>
    match ← { s with work } |>.link p depth parent with
    | (.error e, s) => some (.error e, s)
    | (.ok lineage, s) =>
      match admitted child edge.heritage parent with
      | .error e => some (.error e, s)
      | .ok () => some (.ok lineage, s)
partial_fixpoint

end

end Stacked

-- A run with the stack gives the same result, puts the stack back, and has made only orderly calls.
def Replayed {α : Type} (keys : Set Hop) (run : Stacked σ → Option (Except ResolveError α × Stacked σ))
    (ancestry : List Hop) (w : Work σ) (r : Result σ α) : Prop :=
  ∀ visits, ∃ made, run ⟨w, ancestry, visits⟩ = some (r.1, ⟨r.2, ancestry, made ++ visits⟩) ∧
    ∀ visit ∈ made, visit.Orderly keys

namespace Replayed

theorem again (orderly : Visit.Orderly keys ⟨ancestry.length, ancestry, ancestry⟩) (met : symbol.hop ∈ ancestry)
    (w : Work σ) :
    Replayed keys (Stacked.link p ancestry.length symbol) ancestry w (.error (cyclic ancestry symbol), w) := by
  refine fun visits => ⟨[⟨ancestry.length, ancestry, ancestry⟩], ?_, by simpa using orderly⟩
  rw [Stacked.link, if_pos met]
  rfl

-- The hop that a call pushes is gone again when it returns.
theorem pushed {symbol : Symbol} {result : Except ResolveError (List Lineage)} {w w' : Work σ}
    (orderly : Visit.Orderly keys ⟨ancestry.length, ancestry, ancestry⟩) (fresh : symbol.hop ∉ ancestry)
    (above : Replayed keys (Stacked.linkAll p (ancestry.length + 1) symbol (edges symbol.declaration))
      (ancestry ++ [symbol.hop]) w (result, w')) :
    Replayed keys (Stacked.link p ancestry.length symbol) ancestry w
      (match result with
      | .error e => (.error e, w')
      | .ok parents => (.ok (.ofParents symbol parents), noteLinked (.ofParents symbol parents) w')) := by
  intro visits
  obtain ⟨made, stacked, tidy⟩ := above visits
  refine ⟨⟨ancestry.length, ancestry, ancestry⟩ :: made, ?_, List.forall_mem_cons.mpr ⟨orderly, tidy⟩⟩
  rw [Stacked.link, if_neg fresh, Stacked.push, stacked]
  cases result <;> simp [Stacked.leave, Stacked.pop]

theorem none (child : Symbol) (ancestry : List Hop) (w : Work σ) :
    Replayed keys (Stacked.linkAll p depth child []) ancestry w (.ok [], w) :=
  fun _ => ⟨[], by rw [Stacked.linkAll]; rfl, nofun⟩

theorem broken {w w' : Work σ} (one : Replayed keys (Stacked.linkParent p depth child edge) ancestry w (.error e, w'))
    (rest : List Edge) : Replayed keys (Stacked.linkAll p depth child (edge :: rest)) ancestry w (.error e, w') := by
  intro visits
  obtain ⟨made, stacked, tidy⟩ := one visits
  exact ⟨made, by rw [Stacked.linkAll, stacked]; rfl, tidy⟩

theorem more {result : Except ResolveError (List Lineage)} {w w' w'' : Work σ}
    (one : Replayed keys (Stacked.linkParent p depth child edge) ancestry w (.ok parent, w'))
    (later : Replayed keys (Stacked.linkAll p depth child rest) ancestry w' (result, w'')) :
    Replayed keys (Stacked.linkAll p depth child (edge :: rest)) ancestry w (result.map (parent :: ·), w'') := by
  intro visits
  obtain ⟨made, stacked, tidy⟩ := one visits
  obtain ⟨made', stacked', tidy'⟩ := later (made ++ visits)
  refine ⟨made' ++ made, ?_, fun visit member => (List.mem_append.mp member).elim (tidy' visit) (tidy visit)⟩
  rw [Stacked.linkAll, stacked, List.append_assoc]
  simp only [Option.bind_eq_bind, Option.bind_some, stacked']
  cases result <;> rfl

theorem unresolved {w w' : Work σ} (resolved : resolveHeritage p child.reference edge w = some (.error e, w')) :
    Replayed keys (Stacked.linkParent p depth child edge) ancestry w (.error e, w') :=
  fun _ => ⟨[], by rw [Stacked.linkParent, resolved]; rfl, nofun⟩

theorem resolved {result : Except ResolveError Lineage} {w w' w'' : Work σ}
    (resolved : resolveHeritage p child.reference edge w = some (.ok parent, w'))
    (linked : Replayed keys (Stacked.link p depth parent) ancestry w' (result, w'')) :
    Replayed keys (Stacked.linkParent p depth child edge) ancestry w
      (result.bind fun lineage => (admitted child edge.heritage parent).map fun _ => lineage, w'') := by
  intro visits
  obtain ⟨made, stacked, tidy⟩ := linked visits
  refine ⟨made, ?_, tidy⟩
  rw [Stacked.linkParent, resolved]
  simp only [Option.bind_eq_bind, Option.bind_some, stacked]
  cases result with
  | error e => rfl
  | ok lineage => cases admitted child edge.heritage parent <;> rfl

end Replayed

theorem nodup_push (distinct : ancestry.Nodup) (fresh : hop ∉ ancestry) : (ancestry ++ [hop]).Nodup := by
  rw [List.nodup_append_comm]
  exact List.nodup_cons.mpr ⟨fresh, distinct⟩

-- Along the recursion of the link. A symbol without heritage need not be among the keys: no call is made while it
-- is on the stack.
theorem link_replayed (shows : p.Shows within v) (closed : ∀ x y, v.Extends x y → y.hop ∈ keys)
    (known : within w.state) (linked : Work.link p ancestry symbol w = some r) (distinct : ancestry.Nodup)
    (inside : ∀ hop ∈ ancestry, hop ∈ keys) (member : edges symbol.declaration ≠ [] → symbol.hop ∈ keys) :
    Replayed keys (Stacked.link p ancestry.length symbol) ancestry w r := by
  refine ((Work.link.mutual_partial_correctness p
    (fun ancestry symbol w r => within w.state → ancestry.Nodup → (∀ hop ∈ ancestry, hop ∈ keys) →
      (edges symbol.declaration ≠ [] → symbol.hop ∈ keys) →
      within r.2.state ∧ Replayed keys (Stacked.link p ancestry.length symbol) ancestry w r)
    (fun ancestry child entries w r => within w.state → ancestry.Nodup →
      (entries ≠ [] → ∀ hop ∈ ancestry, hop ∈ keys) → entries ⊆ edges child.declaration →
      within r.2.state ∧ Replayed keys (Stacked.linkAll p ancestry.length child entries) ancestry w r)
    (fun ancestry child edge w r => within w.state → ancestry.Nodup → (∀ hop ∈ ancestry, hop ∈ keys) →
      edge ∈ edges child.declaration →
      within r.2.state ∧ Replayed keys (Stacked.linkParent p ancestry.length child edge) ancestry w r)
    ?_ ?_ ?_).1 _ _ _ _ linked known distinct inside member).2
  · intro linkAll ih ancestry symbol w r linked known distinct inside member
    have orderly : Visit.Orderly keys ⟨ancestry.length, ancestry, ancestry⟩ := ⟨distinct, rfl, rfl, inside⟩
    split at linked
    · rename_i met
      cases linked
      exact ⟨known, .again orderly met w⟩
    · rename_i fresh
      obtain ⟨⟨result, w'⟩, all, linked⟩ := Option.bind_eq_some_iff.mp linked
      have inside' : edges symbol.declaration ≠ [] → ∀ hop ∈ ancestry ++ [symbol.hop], hop ∈ keys := by
        intro heritage hop mem
        rcases List.mem_append.mp mem with below | last
        · exact inside hop below
        · rw [List.mem_singleton.mp last]
          exact member heritage
      obtain ⟨kept, above⟩ := ih _ _ _ _ _ all known (nodup_push distinct fresh) inside' (List.Subset.refl _)
      rw [List.length_append, List.length_singleton] at above
      have replayed := above.pushed orderly fresh
      cases result with
      | error e =>
        cases linked
        exact ⟨kept, replayed⟩
      | ok parents =>
        cases linked
        refine ⟨?_, replayed⟩
        unfold noteLinked
        split <;> exact kept
  · intro linkAll linkParent ihAll ihParent ancestry child entries w r linked known distinct inside subset
    split at linked
    · cases linked
      exact ⟨known, .none child ancestry w⟩
    · rename_i edge rest
      obtain ⟨member, subset⟩ := List.cons_subset.mp subset
      have inside := inside (List.cons_ne_nil _ _)
      obtain ⟨⟨result, w'⟩, one, linked⟩ := Option.bind_eq_some_iff.mp linked
      obtain ⟨kept, first⟩ := ihParent _ _ _ _ _ one known distinct inside member
      cases result with
      | error e =>
        cases linked
        exact ⟨kept, first.broken rest⟩
      | ok parent =>
        obtain ⟨⟨result, w''⟩, all, linked⟩ := Option.bind_eq_some_iff.mp linked
        obtain ⟨kept', later⟩ := ihAll _ _ _ _ _ all kept distinct (fun _ => inside) subset
        cases result <;> cases linked <;> exact ⟨kept', first.more later⟩
  · intro link ih ancestry child edge w r linked known distinct inside member
    obtain ⟨⟨result, w'⟩, resolved, linked⟩ := Option.bind_eq_some_iff.mp linked
    obtain ⟨kept, named⟩ := resolveHeritage_sound shows known member resolved
    cases result with
    | error e =>
      cases linked
      exact ⟨kept, .unresolved resolved⟩
    | ok parent =>
      have step : v.Extends child parent := ⟨edge, member, named⟩
      obtain ⟨⟨result, w''⟩, linkedParent, linked⟩ := Option.bind_eq_some_iff.mp linked
      obtain ⟨kept', replayed⟩ := ih _ _ _ _ linkedParent kept distinct inside fun _ => closed child parent step
      have whole := replayed.resolved resolved
      cases result with
      | error e =>
        cases linked
        exact ⟨kept', whole⟩
      | ok lineage =>
        dsimp only at linked
        split at linked <;>
        · rename_i verdict
          rw [verdict] at whole
          cases linked
          exact ⟨kept', whole⟩

-- The start may be any symbol: everything above it is known.
theorem load_ends (shows : p.Shows within v) (coherent : v.Coherent) (finite : v.places.Finite)
    (symbol : Symbol) (known : within w.state) : ∃ r, loadLineage p symbol w = some r := by
  have parents : ∀ parent, v.Extends symbol parent → ∀ w, within w.state →
      ∃ r, Work.link p [symbol.hop] parent w = some r :=
    fun parent step w known => link_ends shows coherent finite parent (step.known coherent).1 known _
  obtain ⟨⟨result, w'⟩, all⟩ := linkAll_ends shows coherent finite parents (List.Subset.refl _) known
  rw [loadLineage, Work.link, if_neg List.not_mem_nil, List.nil_append, all]
  cases result <;> exact ⟨_, rfl⟩

end Link

namespace View

variable {v : View}

theorem Known.declared (known : v.Known symbol) (heritable : symbol.declaration.Heritable) :
    symbol.hop ∈ v.declared := by
  obtain ⟨x, kinds, holds, here, name, file⟩ := known
  refine ⟨x, holds, Option.isSome_iff_exists.mpr ⟨_, Index.local?_heritable here heritable⟩, ?_⟩
  rw [Place.hop, name, file]
  rfl

theorem declared_finite (coherent : v.Coherent) (finite : v.places.Finite) : v.declared.Finite := by
  refine (keys_finite coherent finite).subset ?_
  rintro hop ⟨x, holds, some, rfl⟩
  obtain ⟨declaration, here⟩ := Option.isSome_iff_exists.mp some
  let request : Request := { kinds := .classesAndInterfaces, origin := .of x.name x.file.path }
  exact ⟨request.symbol x.name x.file.path declaration, ⟨x, _, holds, here, rfl, rfl⟩, rfl⟩

end View

theorem Link.Visit.Orderly.depth_le {keys : Set Hop} {visit : Visit} (orderly : visit.Orderly keys)
    (finite : keys.Finite) : visit.depth ≤ keys.ncard := by
  rw [orderly.level, ← List.toFinset_card_of_nodup orderly.distinct, ← Set.ncard_coe_finset]
  exact Set.ncard_le_ncard (fun hop member => orderly.inside hop (List.mem_toFinset.mp member)) finite

-- Whatever cycles the files contain, searches, enumerations and links in finitely many files end. A search expands
-- no hop twice and an enumeration collects no file twice. Each call of a link finds a stack of distinct ancestors that
-- is as high as the call is deep, and leaves it as it found it; a symbol of the project is never deeper than there are
-- classes and interfaces, and for any other start there is one more.
theorem recursions_bounded {σ : Type} {p : Provider σ} {w : Work σ} (consistent : p.Consistent w.state)
    (finite : p.FiniteFiles w.state) :
    (∀ kinds reference, ∃ r hops, resolve p kinds reference w = some r ∧
      resolveCounted p kinds reference w = some (r, hops) ∧ hops.Nodup) ∧
    (∀ entry, ∃ r files, exportedClasses p entry w = some r ∧
      exportedClassesCounted p entry w = some (r, files) ∧ files.Nodup) ∧
    ∀ symbol, ∃ result w' visits, loadLineage p symbol w = some (result, w') ∧
      Link.Stacked.link p 0 symbol ⟨w, [], []⟩ = some (result, ⟨w', [], visits⟩) ∧
      ∀ visit ∈ visits, visit.found.Nodup ∧ visit.left = visit.found ∧ visit.depth = visit.found.length ∧
        visit.depth ≤ (insert symbol.hop (p.view w.state).declared).ncard ∧
        ((p.view w.state).Known symbol → visit.depth ≤ (p.view w.state).declared.ncard) := by
  have shows := consistent.shows
  have coherent := consistent.coherent
  have places := finite.places_finite
  refine ⟨fun kinds reference => ?_, fun entry => ?_, fun symbol => ?_⟩
  · obtain ⟨result, resolves⟩ := View.resolves_total coherent places kinds reference
    obtain ⟨w', resolved⟩ := resolve_complete shows .refl resolves
    obtain ⟨hops, counted, distinct⟩ := resolve_counted resolved
    exact ⟨_, hops, resolved, counted, distinct⟩
  · obtain ⟨r, enumerated⟩ := exportedClasses_ends shows coherent places .refl entry
    obtain ⟨files, counted, distinct⟩ := exportedClasses_counted enumerated
    exact ⟨_, files, enumerated, counted, distinct⟩
  · obtain ⟨⟨result, w'⟩, loaded⟩ := Link.load_ends shows coherent places symbol .refl
    have declared := View.declared_finite coherent places
    have above : ∀ x y, (p.view w.state).Extends x y → y.hop ∈ (p.view w.state).declared := fun x y step =>
      have ⟨known, _, heritable⟩ := step.known coherent
      known.declared heritable
    by_cases known : (p.view w.state).Known symbol
    · have replayed := Link.link_replayed shows above .refl loaded List.nodup_nil nofun fun heritage =>
        known.declared (Link.heritable_of_edge (List.head_mem heritage))
      obtain ⟨visits, stacked, orderly⟩ := replayed []
      rw [List.append_nil] at stacked
      refine ⟨result, w', visits, loaded, stacked, fun visit member => ?_⟩
      have visited := orderly visit member
      have low := visited.depth_le declared
      exact ⟨visited.distinct, visited.restored, visited.level,
        low.trans (Set.ncard_le_ncard (Set.subset_insert _ _) (declared.insert _)), fun _ => low⟩
    · have replayed := Link.link_replayed shows (fun x y step => Set.mem_insert_of_mem symbol.hop (above x y step))
        .refl loaded List.nodup_nil nofun fun _ => Set.mem_insert _ _
      obtain ⟨visits, stacked, orderly⟩ := replayed []
      rw [List.append_nil] at stacked
      refine ⟨result, w', visits, loaded, stacked, fun visit member => ?_⟩
      have visited := orderly visit member
      exact ⟨visited.distinct, visited.restored, visited.level, visited.depth_le (declared.insert _),
        fun familiar => absurd familiar known⟩

def tangle : List SourceFile :=
  [barrel, stocked, .ofForms "shapes.ts" [.declaration .named (rung "Round" ["Flat"]),
    .declaration .named (rung "Flat" ["Round"])]]

theorem recursions_bounded_tangle :
    (∃ r hops, resolve (.ofFiles tangle) .classes (.of "Gone" ⟨"a.ts"⟩) (.start ()) = some r ∧
      resolveCounted (.ofFiles tangle) .classes (.of "Gone" ⟨"a.ts"⟩) (.start ()) = some (r, hops) ∧ hops.Nodup) ∧
    (∃ r files, exportedClasses (.ofFiles tangle) ⟨"a.ts"⟩ (.start ()) = some r ∧
      exportedClassesCounted (.ofFiles tangle) ⟨"a.ts"⟩ (.start ()) = some (r, files) ∧ files.Nodup) ∧
    ∃ result w' visits, loadLineage (.ofFiles tangle) (seat (rung "Round" ["Flat"])) (.start ()) = some (result, w') ∧
      Link.Stacked.link (.ofFiles tangle) 0 (seat (rung "Round" ["Flat"])) ⟨.start (), [], []⟩ =
        some (result, ⟨w', [], visits⟩) ∧
      ∀ visit ∈ visits, visit.found.Nodup ∧ visit.left = visit.found ∧ visit.depth = visit.found.length := by
  obtain ⟨searches, enumerations, links⟩ := recursions_bounded (w := .start ())
    (Provider.ofFiles_consistent tangle) (Provider.ofFiles_finite _)
  refine ⟨searches _ _, enumerations _, ?_⟩
  obtain ⟨result, w', visits, loaded, stacked, orderly⟩ := links (seat (rung "Round" ["Flat"]))
  refine ⟨result, w', visits, loaded, stacked, fun visit member => ?_⟩
  obtain ⟨distinct, restored, level, -⟩ := orderly visit member
  exact ⟨distinct, restored, level⟩

end ComponentAtlas
