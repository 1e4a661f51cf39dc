import ComponentAtlas.Library
import ComponentAtlas.Proofs.Lockstep
import Mathlib.Data.Set.Card

namespace ComponentAtlas
open Outline

namespace FileTree

variable {t : FileTree}

theorem outlineAt_twin (twin : t.Twin p q) :
    Agrees (ParseError.Like t.Twin) (SourceFile.Like t.Twin) (t.outlineAt p) (t.outlineAt q) := by
  have read : t.readText p = t.readText q := by
    rcases twin with rfl | ⟨same, one, two⟩
    · rfl
    · exact readText_same same one two
  unfold outlineAt
  rw [read]
  cases t.readText q with
  | error cause => exact .error (.unreadable twin)
  | ok text =>
    rcases outline_cases twin.same text with ⟨statements, here, there⟩ | ⟨line, column, reason, here, there⟩
    · dsimp only
      rw [here, there]
      exact .ok ⟨twin, rfl⟩
    · dsimp only
      rw [here, there]
      exact .error (.malformed twin)

theorem findSource_isFile (found : t.findSource p = .ok q) : t.isFile q = true := by
  unfold findSource at found
  split at found
  · rename_i probed
    cases found
    exact List.find?_some probed
  · cases found

theorem findSource_of_isFile (file : t.isFile p = true) : t.findSource p = .ok p := by
  rw [findSource, sourceCandidates, List.append_assoc, List.append_assoc, List.singleton_append, List.find?_cons, file]

theorem findSource_twin (twin : t.Twin p q) :
    Agrees (ParseError.Like t.Twin) t.Twin (t.findSource p) (t.findSource q) := by
  rcases twin with rfl | ⟨same, one, two⟩
  · cases t.findSource p with
    | error e => exact .error (.refl (fun _ => .inl rfl) e)
    | ok found => exact .ok (.inl rfl)
  · rw [findSource_of_isFile one, findSource_of_isFile two]
    exact .ok (.inr ⟨same, one, two⟩)

end FileTree

-- The same failure, or one outline under two spellings of its path.
def Respelled (like : Path → Path → Prop) (result result' : Except ParseError SourceFile) : Prop :=
  Agrees Eq (SourceFile.Like like) result result'

namespace Respelled

variable {t : FileTree}

theorem refl (result : Except ParseError SourceFile) : Respelled t.Twin result result := by
  cases result with
  | ok file => exact .ok ⟨.inl rfl, rfl⟩
  | error e => exact .error rfl

theorem symm (one : Respelled t.Twin result result') : Respelled t.Twin result' result := by
  cases one with
  | ok both => exact .ok ⟨both.path.symm, both.statements.symm⟩
  | error both => exact .error both.symm

theorem trans (one : Respelled t.Twin result result') (two : Respelled t.Twin result' result'') :
    Respelled t.Twin result result'' := by
  cases one with
  | ok both =>
    cases two with
    | ok both' => exact .ok ⟨both.path.trans both'.path, both.statements.trans both'.statements⟩
  | error both =>
    cases two with
    | error both' => exact .error (both.trans both')

theorem agrees (one : Respelled t.Twin result result') :
    Agrees (ParseError.Like t.Twin) (SourceFile.Like t.Twin) result result' := by
  cases one with
  | ok both => exact .ok both
  | error both => exact .error (both ▸ .refl (fun _ => .inl rfl) _)

-- What is alike stays so when an outline is respelled on either side.
theorem before (one : Respelled t.Twin result between)
    (two : Agrees (ParseError.Like t.Twin) (SourceFile.Like t.Twin) between result') :
    Agrees (ParseError.Like t.Twin) (SourceFile.Like t.Twin) result result' := by
  cases one with
  | ok both =>
    cases two with
    | ok both' => exact .ok ⟨both.path.trans both'.path, both.statements.trans both'.statements⟩
  | error both =>
    cases two with
    | error both' => exact .error (both ▸ both')

theorem behind (one : Agrees (ParseError.Like t.Twin) (SourceFile.Like t.Twin) result between)
    (two : Respelled t.Twin between result') :
    Agrees (ParseError.Like t.Twin) (SourceFile.Like t.Twin) result result' := by
  cases two with
  | ok both =>
    cases one with
    | ok both' => exact .ok ⟨both'.path.trans both.path, both'.statements.trans both.statements⟩
  | error both =>
    cases one with
    | error both' => exact .error (both ▸ both')

theorem same (one : Respelled t.Twin result result') : Respelled Path.Same result result' := by
  cases one with
  | ok both => exact .ok ⟨both.path.same, both.statements⟩
  | error both => exact .error both

end Respelled

namespace Library

variable {l l' : Library}

def outlineOf (l : Library) (found : Path) : Except ParseError SourceFile :=
  match l.known.lookup found.components with
  | some file => .ok file
  | none => l.tree.outlineAt found

theorem outlineOf_known (known : l.known.lookup found.components = some file) : l.outlineOf found = .ok file := by
  rw [outlineOf, known]

theorem outlineOf_new (new : l.known.lookup found.components = none) : l.outlineOf found = l.tree.outlineAt found := by
  rw [outlineOf, new]

theorem load_result (l : Library) (path : Path) : (l.load path).result = (l.tree.findSource path).bind l.outlineOf := by
  unfold load
  cases l.tree.findSource path with
  | error e => rfl
  | ok found =>
    simp only [Except.bind, outlineOf]
    cases l.known.lookup found.components with
    | some file => rfl
    | none =>
      dsimp only
      cases l.tree.outlineAt found <;> rfl

theorem load_found (probed : l.tree.findSource path = .ok found) : (l.load path).result = l.outlineOf found := by
  rw [load_result, probed]
  rfl

theorem load_state (l : Library) (path : Path) : (l.load path).state = l ∨
    ∃ found file, l.tree.findSource path = .ok found ∧ l.known.lookup found.components = none ∧
      l.tree.outlineAt found = .ok file ∧ (l.load path).state = { l with known := (found.components, file) :: l.known } := by
  unfold load
  cases probed : l.tree.findSource path with
  | error e => exact .inl rfl
  | ok found =>
    dsimp only
    cases known : l.known.lookup found.components with
    | some file => exact .inl rfl
    | none =>
      dsimp only
      cases read : l.tree.outlineAt found with
      | error e => exact .inl rfl
      | ok file => exact .inr ⟨found, file, rfl, known, read, rfl⟩

theorem load_tree (l : Library) (path : Path) : (l.load path).state.tree = l.tree := by
  obtain same | ⟨found, file, -, -, -, same⟩ := l.load_state path <;> rw [same]

-- A request that fails, and one for a place that is known, leave the library as it was.
theorem load_error (failed : (l.load path).result = .error e) : (l.load path).state = l := by
  obtain same | ⟨found, file, probed, new, read, -⟩ := l.load_state path
  · exact same
  · rw [load_found probed, outlineOf_new new, read] at failed
    cases failed

theorem load_known (probed : l.tree.findSource path = .ok found)
    (known : l.known.lookup found.components = some file) : (l.load path).state = l := by
  obtain same | ⟨found', file', probed', new, -, -⟩ := l.load_state path
  · exact same
  · rw [probed] at probed'
    cases probed'
    rw [known] at new
    cases new

theorem lookup_load (probed : l.tree.findSource path = .ok found) (place : List Path.Component) :
    (l.load path).state.known.lookup place =
      if place = found.components then (l.load path).result.toOption else l.known.lookup place := by
  rw [load_found probed, outlineOf]
  unfold load
  rw [probed]
  dsimp only
  cases known : l.known.lookup found.components with
  | some file =>
    dsimp only
    split
    · rename_i here
      rw [here, known]
      rfl
    · rfl
  | none =>
    dsimp only
    cases read : l.tree.outlineAt found with
    | error e =>
      dsimp only
      split
      · rename_i here
        rw [here, known]
        rfl
      · rfl
    | ok file =>
      dsimp only
      rw [List.lookup_cons]
      by_cases here : place = found.components
      · rw [here, beq_self_eq_true, if_pos rfl]
        rfl
      · rw [beq_eq_false_iff_ne.mpr here, if_neg here]

-- What can happen: the file tree changes, by a write, a removal or otherwise, or a file is asked for.
inductive Event where
  | change (edit : FileTree → FileTree)
  | load (path : Path)

def step (l : Library) : Event → Library
  | .change edit => { l with tree := edit l.tree }
  | .load path => (l.load path).state

def after (l : Library) (events : List Event) : Library := events.foldl step l

theorem after_append (l : Library) (events more : List Event) :
    l.after (events ++ more) = (l.after events).after more := List.foldl_append

def Answered (l : Library) (events : List Event) (place : List Path.Component) (file : SourceFile) : Prop :=
  ∃ before path later found, events = before ++ .load path :: later ∧
    (l.after before).tree.findSource path = .ok found ∧ found.components = place ∧
    ((l.after before).load path).result = .ok file

theorem not_answered_nil : ¬ l.Answered [] place file := by
  rintro ⟨before, path, later, found, equal, -⟩
  simp at equal

theorem answered_snoc : l.Answered (events ++ [event]) place file ↔ l.Answered events place file ∨
    ∃ path found, event = .load path ∧ (l.after events).tree.findSource path = .ok found ∧
      found.components = place ∧ ((l.after events).load path).result = .ok file := by
  constructor
  · rintro ⟨before, path, later, found, equal, probed, here, answer⟩
    rcases List.eq_nil_or_concat later with rfl | ⟨later, last, rfl⟩
    · obtain ⟨rfl, same⟩ := List.append_inj' equal rfl
      cases same
      exact .inr ⟨path, found, rfl, probed, here, answer⟩
    · rw [List.concat_eq_append, ← List.cons_append, ← List.append_assoc] at equal
      obtain ⟨rfl, -⟩ := List.append_inj' equal rfl
      exact .inl ⟨before, path, later, found, rfl, probed, here, answer⟩
  · rintro (⟨before, path, later, found, rfl, rest⟩ | ⟨path, found, rfl, rest⟩)
    · exact ⟨before, path, later ++ [event], found, by simp, rest⟩
    · exact ⟨events, path, [], found, rfl, rest⟩

-- The library knows of a place exactly what requests for it have been answered.
theorem known_iff (tree : FileTree) (events : List Event) (place : List Path.Component) (file : SourceFile) :
    ((ofTree tree).after events).known.lookup place = some file ↔ (ofTree tree).Answered events place file := by
  induction events using List.reverseRecOn with
  | nil => exact ⟨nofun, fun answered => absurd answered not_answered_nil⟩
  | append_singleton events event ih =>
    rw [answered_snoc, ← ih, after_append]
    generalize (ofTree tree).after events = l
    cases event with
    | change edit => simp [after, step]
    | load path =>
      change (l.load path).state.known.lookup place = some file ↔ _
      cases probed : l.tree.findSource path with
      | error e =>
        have failed : (l.load path).result = .error e := by rw [load_result, probed]; rfl
        rw [load_error failed]
        simp [probed]
      | ok found =>
        rw [lookup_load probed]
        split
        · rename_i here
          subst here
          constructor
          · intro answer
            refine .inr ⟨path, found, rfl, probed, rfl, ?_⟩
            cases result : (l.load path).result with
            | error e => rw [result] at answer; cases answer
            | ok file' => rw [result] at answer; cases answer; rfl
          · rintro (known | ⟨path', found', same, probed', -, answer⟩)
            · rw [load_found probed, outlineOf_known known]
              rfl
            · cases same
              rw [answer]
              rfl
        · rename_i elsewhere
          constructor
          · exact .inl
          · rintro (known | ⟨path', found', same, probed', here, -⟩)
            · exact known
            · cases same
              rw [probed] at probed'
              cases probed'
              exact absurd here.symm elsewhere

theorem known_distinct (distinct : (l.known.map (·.1)).Nodup) (events : List Event) :
    ((l.after events).known.map (·.1)).Nodup := by
  induction events generalizing l with
  | nil => exact distinct
  | cons event events ih =>
    refine ih ?_
    cases event with
    | change edit => exact distinct
    | load path =>
      obtain same | ⟨found, file, -, new, -, same⟩ := l.load_state path
      · rw [step, same]
        exact distinct
      · rw [step, same]
        refine List.nodup_cons.mpr ⟨fun member => ?_, distinct⟩
        obtain ⟨⟨place, file'⟩, known, rfl⟩ := List.mem_map.mp member
        rw [List.lookup_eq_none_iff] at new
        simpa using new _ known

theorem size_after_le (l : Library) (events : List Event) : l.size ≤ (l.after events).size := by
  induction events generalizing l with
  | nil => exact Nat.le_refl _
  | cons event events ih =>
    refine Nat.le_trans ?_ (ih (l.step event))
    cases event with
    | change edit => exact Nat.le_refl _
    | load path =>
      obtain same | ⟨found, file, -, -, -, same⟩ := l.load_state path
      · rw [step, same]
      · rw [step, same]
        exact Nat.le_succ _

theorem size_eq_ncard (tree : FileTree) (events : List Event) : ((ofTree tree).after events).size =
    {place | ∃ file, (ofTree tree).Answered events place file}.ncard := by
  have distinct := known_distinct (l := ofTree tree) List.nodup_nil events
  have places : {place | ∃ file, (ofTree tree).Answered events place file} =
      {place | place ∈ ((ofTree tree).after events).known.map (·.1)} := by
    ext place
    simp only [Set.mem_ofPred_eq, ← known_iff, ← Option.isSome_iff_exists, List.lookup_isSome_iff, List.mem_map]
    simp
  rw [places, ← List.coe_toFinset, Set.ncard_coe_finset, List.toFinset_card_of_nodup distinct, List.length_map, size]

structure Interchangeable (l l' : Library) : Prop where
  tree : l.tree = l'.tree
  outlineOf : l.tree.isFile found = true → Respelled l.tree.Twin (l.outlineOf found) (l'.outlineOf found)

theorem Interchangeable.refl (l : Library) : Interchangeable l l := ⟨rfl, fun _ => .refl _⟩

theorem Interchangeable.symm (one : Interchangeable l l') : Interchangeable l' l := by
  refine ⟨one.tree.symm, fun file => ?_⟩
  rw [← one.tree] at file ⊢
  exact (one.outlineOf file).symm

theorem Interchangeable.trans (one : Interchangeable l l') (two : Interchangeable l' l'') : Interchangeable l l'' := by
  refine ⟨one.tree.trans two.tree, fun file => (one.outlineOf file).trans ?_⟩
  rw [one.tree] at file ⊢
  exact two.outlineOf file

-- A request makes no difference to later ones: what was read could be read again.
theorem load_interchangeable (l : Library) (path : Path) : Interchangeable (l.load path).state l := by
  obtain same | ⟨found, file, probed, new, read, same⟩ := l.load_state path
  · rw [same]
    exact .refl l
  · rw [same]
    refine ⟨rfl, fun {other} isFile => ?_⟩
    by_cases here : found.components = other.components
    · have read' := FileTree.outlineAt_twin (.inr ⟨here, FileTree.findSource_isFile probed, isFile⟩)
      rw [read] at read'
      rw [outlineOf, List.lookup_cons, ← here, beq_self_eq_true, outlineOf_new (here ▸ new)]
      generalize l.tree.outlineAt other = answer at read'
      cases read' with
      | ok both => exact .ok both
    · rw [outlineOf, List.lookup_cons, beq_eq_false_iff_ne.mpr (Ne.symm here)]
      exact .refl _

theorem requests_interchangeable (l : Library) (paths : List Path) :
    Interchangeable (l.after (paths.map .load)) l := by
  induction paths generalizing l with
  | nil => exact .refl l
  | cons path paths ih => exact (ih _).trans (l.load_interchangeable path)

theorem Interchangeable.load (alike : Interchangeable l l') (path : Path) :
    Respelled l.tree.Twin (l.load path).result (l'.load path).result := by
  rw [load_result, load_result, ← alike.tree]
  cases probed : l.tree.findSource path with
  | error e => exact .error rfl
  | ok found => exact alike.outlineOf (FileTree.findSource_isFile probed)

theorem outlineOf_twin (l : Library) (twin : l.tree.Twin p q) :
    Agrees (ParseError.Like l.tree.Twin) (SourceFile.Like l.tree.Twin) (l.outlineOf p) (l.outlineOf q) := by
  have same : p.components = q.components := twin.same
  rw [outlineOf, outlineOf, same]
  cases l.known.lookup q.components with
  | some file => exact .ok ⟨.inl rfl, rfl⟩
  | none => exact FileTree.outlineAt_twin twin

theorem lockstep (tree : FileTree) :
    Lockstep provider provider tree.Twin fun l l' => l.tree = tree ∧ Interchangeable l l' where
  refl := .inl rfl
  same := FileTree.Twin.same
  load := by
    rintro l l' path path' ⟨rfl, alike⟩ twin -
    change Agrees _ _ (l.load path).result (l'.load path').result ∧ (l.load path).state.tree = l.tree ∧
      Interchangeable (l.load path).state (l'.load path').state
    refine ⟨?_, l.load_tree path, ?_⟩
    · have first : Respelled l.tree.Twin (l.load path).result (l'.load path).result := alike.load path
      have second : Agrees (ParseError.Like l.tree.Twin) (SourceFile.Like l.tree.Twin) (l'.load path).result
          (l'.load path').result := by
        rw [alike.tree] at twin ⊢
        rcases twin with rfl | ⟨same, one, two⟩
        · exact (Respelled.refl _).agrees
        · rw [load_found (FileTree.findSource_of_isFile one), load_found (FileTree.findSource_of_isFile two)]
          exact l'.outlineOf_twin (.inr ⟨same, one, two⟩)
      exact first.before second
    · exact ((l.load_interchangeable path).trans alike).trans (l'.load_interchangeable path').symm

end Library

theorem Work.openFile_known {w : Work Library} (probed : w.state.tree.findSource path = .ok found)
    (known : w.state.known.lookup found.components = some file) (indexed : Index.ofFile file = .ok index) :
    w.openFile Library.provider path = (.ok (file, index), w) := by
  have loaded : Library.load path w.state = { result := .ok file, state := w.state, log := [] } := by
    unfold Library.load
    rw [probed]
    dsimp only
    rw [known]
  unfold Work.openFile
  dsimp only [Library.provider]
  rw [loaded]
  dsimp only
  rw [indexed, List.append_nil]

theorem Work.openFile_missing {w : Work Library} (probed : w.state.tree.findSource path = .error e) :
    w.openFile Library.provider path = (.error (.parse e), w) := by
  have loaded : Library.load path w.state = { result := .error e, state := w.state, log := [] } := by
    unfold Library.load
    rw [probed]
  unfold Work.openFile
  dsimp only [Library.provider]
  rw [loaded]
  dsimp only
  rw [List.append_nil]

-- The library is a memo that is written once for each place. After any history a request looks at the file
-- tree as it is now; a place that was answered before is answered alike, any other is read; only a success
-- is kept, and one outline is kept for each place.
theorem load_writeOnce (tree : FileTree) (events : List Library.Event) (path : Path) :
    let start := Library.ofTree tree
    let l := start.after events
    ((∀ candidate ∈ sourceCandidates path, l.tree.isFile candidate = false) →
      (l.load path).result = .error (.noSource path (sourceCandidates path).length) ∧ (l.load path).state = l) ∧
    (∀ found, (sourceCandidates path).find? l.tree.isFile = some found →
      (∀ file, start.Answered events found.components file →
        (l.load path).result = .ok file ∧ (l.load path).state = l) ∧
      ((∀ file, ¬ start.Answered events found.components file) →
        (l.load path).result = l.tree.outlineAt found ∧
          (l.load path).state.known =
            (l.tree.outlineAt found).toOption.toList.map (found.components, ·) ++ l.known)) ∧
    (∀ e, (l.load path).result = .error e → (l.load path).state = l) ∧
    l.size = {place | ∃ file, start.Answered events place file}.ncard ∧
    (∀ more, l.size ≤ (l.after more).size) ∧
    ∀ paths : List Path, Respelled Path.Same ((start.after (paths.map .load)).load path).result
      ((tree.findSource path).bind tree.outlineAt) := by
  intro start l
  refine ⟨fun none => ?_, fun found probe => ⟨fun file answered => ?_, fun unanswered => ?_⟩, fun e failed => ?_,
    Library.size_eq_ncard tree events, l.size_after_le, fun paths => ?_⟩
  · have probed : l.tree.findSource path = .error (.noSource path (sourceCandidates path).length) := by
      rw [FileTree.findSource, List.find?_eq_none.mpr (by simpa using none)]
    have failed : (l.load path).result = .error (.noSource path (sourceCandidates path).length) := by
      rw [Library.load_result, probed]
      rfl
    exact ⟨failed, Library.load_error failed⟩
  · have probed : l.tree.findSource path = .ok found := by rw [FileTree.findSource, probe]
    have known := (Library.known_iff tree events _ file).mpr answered
    exact ⟨by rw [Library.load_found probed, Library.outlineOf_known known], Library.load_known probed known⟩
  · have probed : l.tree.findSource path = .ok found := by rw [FileTree.findSource, probe]
    have new : l.known.lookup found.components = none := by
      rw [Option.eq_none_iff_forall_ne_some]
      exact fun file known => unanswered file ((Library.known_iff tree events _ file).mp known)
    refine ⟨by rw [Library.load_found probed, Library.outlineOf_new new], ?_⟩
    unfold Library.load
    rw [probed]
    dsimp only
    rw [new]
    dsimp only
    cases l.tree.outlineAt found <;> rfl
  · exact Library.load_error failed
  · have uncached : (start.load path).result = (tree.findSource path).bind tree.outlineAt := start.load_result path
    rw [← uncached]
    exact ((start.requests_interchangeable paths).load path).same

-- The file is outlined, then written anew, and the outline of the first text is what the next request is answered.
example :
    let start := Library.ofTree
      { workingDirectory := ["project"]
        entries := [(["project"], .directory), (["project", "a.ts"], .file (.text "class A \x7b\x7d"))] }
    let rewrite : FileTree → FileTree := fun t => (t.write ⟨"a.ts"⟩ (.text "class B \x7b\x7d")).toOption.getD t
    let l := start.after [.load ⟨"a.ts"⟩, .change rewrite]
    let names : Except ParseError SourceFile → Option (List String) := fun result =>
      result.toOption.map fun file => (Index.ofStatements file).declaredClasses.keys
    (l.tree.readText ⟨"a.ts"⟩).toOption = some "class B \x7b\x7d" ∧ names (l.tree.outlineAt ⟨"a.ts"⟩) = some ["B"] ∧
      names (l.load ⟨"a.ts"⟩).result = some ["A"] ∧ l.size = 1 := by
  decide +kernel

end ComponentAtlas
