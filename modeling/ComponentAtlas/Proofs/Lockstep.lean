import ComponentAtlas.Proofs.ExportList
import ComponentAtlas.Proofs.FilePlaces
import ComponentAtlas.Resolve.Lineage
import Mathlib.Data.List.Forall2

namespace ComponentAtlas
open Outline

section

variable (like : Path → Path → Prop)

inductive ParseError.Like : ParseError → ParseError → Prop where
  | readerSetup : Like (.readerSetup reason) (.readerSetup reason)
  | unreadable (path : like p q) : Like (.unreadable p cause) (.unreadable q cause)
  | noSource (path : like p q) : Like (.noSource p tried) (.noSource q tried)
  | malformed (path : like p q) : Like (.malformed p line column reason) (.malformed q line column reason)

inductive ResolveError.Like : ResolveError → ResolveError → Prop where
  | parse (error : e.Like like e') : Like (.parse e) (.parse e')
  | malformedExport (path : like p q) :
      Like (.malformedExport p line column reason) (.malformedExport q line column reason)
  | symbolNotFound (path : like p q) : Like (.symbolNotFound name p) (.symbolNotFound name q)
  | unsupportedHeritage (path : like p q) :
      Like (.unsupportedHeritage name expression p line column reason)
        (.unsupportedHeritage name expression q line column reason)
  | cyclicHierarchy (path : like p q) : Like (.cyclicHierarchy name p chain) (.cyclicHierarchy name q chain)

-- One text, or one that ends in what is said of the same failure.
inductive MessageLike : String → String → Prop where
  | same : MessageLike message message
  | failure (error : ResolveError.Like like e e') : MessageLike (lead ++ e.message) (lead ++ e'.message)

structure Diagnostic.Like (d d' : Diagnostic) : Prop where
  kind : d.kind = d'.kind
  path : like d.path d'.path
  range : d.range = d'.range
  message : MessageLike like d.message d'.message

structure Reference.Like (r r' : Reference) : Prop where
  name : r.name = r'.name
  file : like r.file r'.file
  package : r.package = r'.package

structure Symbol.Like (s s' : Symbol) : Prop where
  reference : s.reference.Like like s'.reference
  declaration : s.declaration = s'.declaration

-- A lineage as its users see it, with the symbols next above it.
structure Lineage.Like (l l' : Lineage) : Prop where
  symbol : l.symbol.Like like l'.symbol
  superclass : Option.Rel (Symbol.Like like) (l.superclass.map (·.symbol)) (l'.superclass.map (·.symbol))
  interfaces : List.Forall₂ (Symbol.Like like) (l.interfaces.map (·.symbol)) (l'.interfaces.map (·.symbol))

structure ExportList.Like (l l' : ExportList) : Prop where
  keys : l.classes.keys = l'.classes.keys
  failed : List.Forall₂ (fun x x' => x.1 = x'.1 ∧ x.2.Like like x'.2) l.failed l'.failed
  names : l.names = l'.names

end

theorem ParseError.Like.refl (refl : ∀ path, like path path) (e : ParseError) : e.Like like e := by
  cases e with
  | readerSetup => exact .readerSetup
  | unreadable path => exact .unreadable (refl path)
  | noSource path => exact .noSource (refl path)
  | malformed path => exact .malformed (refl path)

theorem ResolveError.Like.isSymbolNotFound {e e' : ResolveError} (alike : e.Like like e') :
    e.isSymbolNotFound = e'.isSymbolNotFound := by
  cases alike <;> rfl

section

variable {like like' : Path → Path → Prop}

theorem ParseError.Like.imp (weaker : ∀ p q, like p q → like' p q) {e e' : ParseError} (alike : e.Like like e') :
    e.Like like' e' := by
  cases alike with
  | readerSetup => exact .readerSetup
  | unreadable path => exact .unreadable (weaker _ _ path)
  | noSource path => exact .noSource (weaker _ _ path)
  | malformed path => exact .malformed (weaker _ _ path)

theorem ResolveError.Like.imp (weaker : ∀ p q, like p q → like' p q) {e e' : ResolveError} (alike : e.Like like e') :
    e.Like like' e' := by
  cases alike with
  | parse error => exact .parse (error.imp weaker)
  | malformedExport path => exact .malformedExport (weaker _ _ path)
  | symbolNotFound path => exact .symbolNotFound (weaker _ _ path)
  | unsupportedHeritage path => exact .unsupportedHeritage (weaker _ _ path)
  | cyclicHierarchy path => exact .cyclicHierarchy (weaker _ _ path)

theorem Diagnostic.Like.imp (weaker : ∀ p q, like p q → like' p q) {d d' : Diagnostic} (alike : d.Like like d') :
    d.Like like' d' := by
  refine ⟨alike.kind, weaker _ _ alike.path, alike.range, ?_⟩
  have messages := alike.message
  generalize d.message = one at messages
  generalize d'.message = two at messages
  cases messages with
  | same => exact .same
  | failure error => exact .failure (error.imp weaker)

-- Without a change of spelling nothing differs.
theorem ParseError.Like.eq {e e' : ParseError} (alike : e.Like Eq e') : e = e' := by
  cases alike with
  | readerSetup => rfl
  | unreadable path | noSource path | malformed path => rw [path]

theorem ResolveError.Like.eq {e e' : ResolveError} (alike : e.Like Eq e') : e = e' := by
  cases alike with
  | parse error => rw [error.eq]
  | malformedExport path | symbolNotFound path | unsupportedHeritage path | cyclicHierarchy path => rw [path]

theorem Diagnostic.Like.eq {d d' : Diagnostic} (alike : d.Like Eq d') : d = d' := by
  obtain ⟨kind, path, range, message⟩ := d
  obtain ⟨kind', path', range', message'⟩ := d'
  obtain ⟨kinds, paths, ranges, messages⟩ := alike
  dsimp only at kinds paths ranges messages
  cases messages with
  | same => rw [kinds, paths, ranges]
  | failure error => rw [kinds, paths, ranges, error.eq]

end

section

variable {σ τ : Type}

-- Answers to the same question are alike, and keep the states of the two providers together, as long as the first
-- one comes to states that are sound. Once a state is not, none that follow are.
structure Lockstep (p : Provider σ) (q : Provider τ) (like : Path → Path → Prop) (together : σ → τ → Prop)
    (sound : σ → Prop := fun _ => True) : Prop where
  refl : like path path
  same : like path path' → path.Same path'
  earlier {path : Path} {state : σ} : sound (p.load path state).state → sound state := by exact fun _ => trivial
  load : together state state' → like path path' → sound (p.load path state).state →
    Agrees (ParseError.Like like) (SourceFile.Like like) (p.load path state).result (q.load path' state').result ∧
      together (p.load path state).state (q.load path' state').state

structure Work.Like (like : Path → Path → Prop) (together : σ → τ → Prop) (w : Work σ) (w' : Work τ) : Prop where
  state : together w.state w'.state
  diagnostics : List.Forall₂ (Diagnostic.Like like) w.diagnostics w'.diagnostics

variable {p : Provider σ} {q : Provider τ} {like : Path → Path → Prop} {together : σ → τ → Prop} {sound : σ → Prop}
  {w : Work σ} {w' : Work τ}

namespace Work.Like

theorem say (alike : Work.Like like together w w') (level level' : LogLevel) (topic topic' : LogTopic)
    (message message' : String) :
    Work.Like like together (w.say level topic message) (w'.say level' topic' message') :=
  ⟨alike.state, alike.diagnostics⟩

theorem report (alike : Work.Like like together w w') (paths : like path path') (kind : DiagnosticKind)
    (messages : MessageLike like message message') :
    Work.Like like together (w.report kind path message) (w'.report kind path' message') :=
  ⟨alike.state, List.rel_append alike.diagnostics (.cons ⟨rfl, paths, rfl, messages⟩ .nil)⟩

theorem noteLinked (alike : Work.Like like together w w') (lineage lineage' : Lineage) :
    Work.Like like together (Link.noteLinked lineage w) (Link.noteLinked lineage' w') := by
  unfold Link.noteLinked
  split <;> split <;> exact ⟨alike.state, alike.diagnostics⟩

end Work.Like

-- Specifiers resolve alike from both spellings of a path, so like files have one index.
theorem Target.ofSpecifier_same {path path' : Path} (same : path.Same path') (specifier : String) :
    ofSpecifier specifier path = ofSpecifier specifier path' := by
  have joined : (path.parentD.joinText specifier).Same (path'.parentD.joinText specifier) :=
    Path.join_same (Path.parentD_same same) _
  rw [ofSpecifier, ofSpecifier, Path.normalize, Path.normalize, joined]

theorem Index.ofStatements_same {file file' : SourceFile} (alike : file.Like Path.Same file') :
    ofStatements file = ofStatements file' := by
  have steps : add file.path = add file'.path := by
    funext index s
    simp only [add, Target.ofSpecifier_same alike.path]
  rw [ofStatements, ofStatements, alike.statements, steps]

namespace Lockstep

variable (lockstep : Lockstep p q like together sound)
include lockstep

theorem openFile (works : Work.Like like together w w') (paths : like path path')
    (held : sound (w.openFile p path).2.state) :
    Agrees (ResolveError.Like like) (fun x x' => x.1.Like like x'.1 ∧ x.2 = x'.2) (w.openFile p path).1
        (w'.openFile q path').1 ∧
      Work.Like like together (w.openFile p path).2 (w'.openFile q path').2 := by
  rw [(w.openFile_work path).1] at held
  obtain ⟨answers, states⟩ := lockstep.load works.state paths held
  unfold Work.openFile
  generalize p.load path w.state = one at answers states
  generalize q.load path' w'.state = two at answers states
  obtain ⟨result, state, log⟩ := one
  obtain ⟨result', state', log'⟩ := two
  dsimp only at answers states ⊢
  cases answers with
  | error both => exact ⟨.error (.parse both), states, works.diagnostics⟩
  | ok both =>
    rename_i file file'
    have same : file.Like Path.Same file' := ⟨lockstep.same both.path, both.statements⟩
    dsimp only
    rw [Index.ofFile, Index.ofFile, both.statements, Index.ofStatements_same same]
    cases file'.statements.find? Index.isAnonymous with
    | some s => exact ⟨.error (.malformedExport both.path), states, works.diagnostics⟩
    | none => exact ⟨.ok ⟨both, rfl⟩, states, works.diagnostics⟩

-- What the other run opens when this one opens a file, and when it fails to.
theorem openFile_ok (opened : w.openFile p path = (.ok (file, index), work)) (held : sound work.state) :
    sound w.state ∧ ∀ path' w', like path path' → Work.Like like together w w' →
      ∃ file' work', w'.openFile q path' = (.ok (file', index), work') ∧ file.Like like file' ∧
        Work.Like like together work work' := by
  have held : sound (w.openFile p path).2.state := by rw [opened]; exact held
  refine ⟨lockstep.earlier ((w.openFile_work path).1 ▸ held), fun path' w' paths works => ?_⟩
  obtain ⟨answers, works⟩ := lockstep.openFile works paths held
  rw [opened] at answers works
  generalize w'.openFile q path' = two at answers works
  obtain ⟨two, work'⟩ := two
  cases answers with
  | @ok _ x both =>
    obtain ⟨file', index'⟩ := x
    obtain ⟨files, rfl⟩ := both
    exact ⟨file', work', rfl, files, works⟩

theorem openFile_error (opened : w.openFile p path = (.error e, work)) (held : sound work.state) :
    sound w.state ∧ ∀ path' w', like path path' → Work.Like like together w w' →
      ∃ e' work', w'.openFile q path' = (.error e', work') ∧ e.Like like e' ∧ Work.Like like together work work' := by
  have held : sound (w.openFile p path).2.state := by rw [opened]; exact held
  refine ⟨lockstep.earlier ((w.openFile_work path).1 ▸ held), fun path' w' paths works => ?_⟩
  obtain ⟨answers, works⟩ := lockstep.openFile works paths held
  rw [opened] at answers works
  generalize w'.openFile q path' = two at answers works
  obtain ⟨two, work'⟩ := two
  cases answers with
  | error both => exact ⟨_, work', rfl, both, works⟩

theorem hop (paths : like path path') (name : String) : Hop.of path name = Hop.of path' name := by
  rw [Hop.of, Hop.of, lockstep.same paths]

theorem symbol_hop {s s' : Symbol} (alike : s.Like like s') : s.hop = s'.hop := by
  rw [Symbol.hop, Symbol.hop, Symbol.name, Symbol.name, alike.reference.name]
  exact lockstep.hop alike.reference.file _

end Lockstep

structure Search.Like (like : Path → Path → Prop) (together : σ → τ → Prop) (s : Search σ) (s' : Search τ) : Prop where
  work : Work.Like like together s.work s'.work
  visited : s.visited = s'.visited

namespace Search.Like

variable {s : Search σ} {s' : Search τ}

theorem report (alike : Search.Like like together s s') (paths : like path path') (kind : DiagnosticKind)
    (messages : MessageLike like message message') :
    Search.Like like together (s.report kind path message) (s'.report kind path' message') :=
  ⟨alike.work.report paths kind messages, alike.visited⟩

theorem passOver (alike : Search.Like like together s s') (paths : like path path') (name : String)
    (errors : ResolveError.Like like e e') :
    Search.Like like together (Search.passOver name path e s) (Search.passOver name path' e' s') := by
  unfold Search.passOver
  dsimp only
  refine report ⟨?_, ?_⟩ paths _ (.failure errors)
  · split <;> split <;> exact ⟨alike.work.state, alike.work.diagnostics⟩
  · split <;> split <;> exact alike.visited

theorem noteUnfollowed (alike : Search.Like like together s s') (paths : like path path') (index : Index)
    (name : String) :
    Search.Like like together (Search.noteUnfollowed index name path s) (Search.noteUnfollowed index name path' s') := by
  unfold Search.noteUnfollowed
  split
  · exact alike.report paths _ .same
  · split
    · exact alike.report paths _ .same
    · exact alike

end Search.Like

def Search.ResultLike (like : Path → Path → Prop) (together : σ → τ → Prop) (r : Search.Result σ) (r' : Search.Result τ) :
    Prop :=
  Agrees (ResolveError.Like like) (Symbol.Like like) r.1 r'.1 ∧ Search.Like like together r.2 r'.2

namespace Lockstep

theorem lookup_sound (lockstep : Lockstep p q like together sound) {request request' : Request}
    (kinds : request.kinds = request'.kinds) (package : request.origin.package = request'.origin.package)
    (ran : Search.lookup p request name path s = some r) (held : sound r.2.work.state) :
    sound s.work.state ∧ ∀ path' s', like path path' → Search.Like like together s s' →
      ∃ r', Search.lookup q request' name path' s' = some r' ∧ Search.ResultLike like together r r' := by
  refine (Search.lookup.mutual_partial_correctness p request
    (fun name path s r => sound r.2.work.state → sound s.work.state ∧
      ∀ path' s', like path path' → Search.Like like together s s' →
        ∃ r', Search.lookup q request' name path' s' = some r' ∧ Search.ResultLike like together r r')
    (fun name file index s r => sound r.2.work.state → sound s.work.state ∧
      ∀ file' s', file.Like like file' → Search.Like like together s s' →
        ∃ r', Search.expand q request' name file' index s' = some r' ∧ Search.ResultLike like together r r')
    (fun name referrer targets s r => sound r.2.work.state → sound s.work.state ∧
      ∀ referrer' s', like referrer referrer' → Search.Like like together s s' →
        ∃ r', Search.firstOf q request' name referrer' targets s' = some r' ∧
          Option.Rel (Symbol.Like like) r.1 r'.1 ∧ Search.Like like together r.2 r'.2)
    (fun name target referrer s r => sound r.2.work.state → sound s.work.state ∧
      ∀ referrer' s', like referrer referrer' → Search.Like like together s s' →
        ∃ r', Search.follow q request' name target referrer' s' = some r' ∧ Search.ResultLike like together r r')
    ?_ ?_ ?_ ?_).1 _ _ _ _ ran held
  · intro expand ih name path s r ran held
    split at ran
    · rename_i e work opened
      cases ran
      obtain ⟨before, fails⟩ := lockstep.openFile_error opened held
      refine ⟨before, fun path' s' paths searches => ?_⟩
      obtain ⟨e', work', opened', both, works⟩ := fails _ _ paths searches.work
      rw [Search.lookup, opened']
      exact ⟨_, rfl, .error both, works, searches.visited⟩
    · rename_i file index work opened
      dsimp only at ran
      split at ran
      · rename_i seen
        cases ran
        obtain ⟨before, opens⟩ := lockstep.openFile_ok opened held
        refine ⟨before, fun path' s' paths searches => ?_⟩
        obtain ⟨file', work', opened', files, works⟩ := opens _ _ paths searches.work
        rw [lockstep.hop files.path, searches.visited] at seen
        rw [Search.lookup, opened']
        dsimp only
        rw [if_pos seen]
        exact ⟨_, rfl, .error (.symbolNotFound files.path), works.report files.path _ .same, searches.visited⟩
      · rename_i fresh
        obtain ⟨between, continues⟩ := ih _ _ _ _ _ ran held
        obtain ⟨before, opens⟩ := lockstep.openFile_ok opened between
        refine ⟨before, fun path' s' paths searches => ?_⟩
        obtain ⟨file', work', opened', files, works⟩ := opens _ _ paths searches.work
        rw [lockstep.hop files.path, searches.visited] at fresh
        rw [Search.lookup, opened']
        dsimp only
        rw [if_neg fresh]
        refine continues _ _ files ⟨works.say _ _ _ _ _ _, ?_⟩
        exact congrArg₂ List.cons (lockstep.hop files.path name) searches.visited
  · intro firstOf follow ihFirst ihFollow name file index s r ran held
    split at ran
    · rename_i here
      cases ran
      refine ⟨held, fun file' s' files searches => ?_⟩
      rw [Search.expand, ← kinds, here]
      exact ⟨_, rfl, .ok ⟨⟨rfl, files.path, package⟩, rfl⟩, searches⟩
    · rename_i absent
      split at ran
      · rename_i binds
        obtain ⟨before, follows⟩ := ihFollow _ _ _ _ _ ran held
        refine ⟨before, fun file' s' files searches => ?_⟩
        rw [Search.expand, ← kinds, absent, binds]
        exact follows _ _ files.path searches
      · rename_i unbound
        obtain ⟨⟨found, middle⟩, first, ran⟩ := Option.bind_eq_some_iff.mp ran
        have between : sound middle.work.state := by
          cases found with
          | some symbol =>
            cases ran
            exact held
          | none =>
            cases ran
            exact (Search.noted_unfollowed index name file.path middle).state ▸ held
        obtain ⟨before, firsts⟩ := ihFirst _ _ _ _ _ first between
        refine ⟨before, fun file' s' files searches => ?_⟩
        obtain ⟨⟨found', middle'⟩, first', founds, searches'⟩ := firsts _ _ files.path searches
        rw [Search.expand, ← kinds, absent, unbound, first']
        cases founds with
        | some both =>
          cases ran
          exact ⟨_, rfl, .ok both, searches'⟩
        | none =>
          cases ran
          exact ⟨_, rfl, .error (.symbolNotFound files.path), searches'.noteUnfollowed files.path _ _⟩
  · intro firstOf follow ihFirst ihFollow name referrer targets s r ran held
    split at ran
    · cases ran
      refine ⟨held, fun referrer' s' referrers searches => ?_⟩
      rw [Search.firstOf]
      exact ⟨_, rfl, .none, searches⟩
    · obtain ⟨⟨result, middle⟩, one, ran⟩ := Option.bind_eq_some_iff.mp ran
      cases result with
      | ok symbol =>
        cases ran
        obtain ⟨before, follows⟩ := ihFollow _ _ _ _ _ one held
        refine ⟨before, fun referrer' s' referrers searches => ?_⟩
        obtain ⟨⟨result', middle'⟩, one', results, searches'⟩ := follows _ _ referrers searches
        rw [Search.firstOf, one']
        cases results with
        | ok both => exact ⟨_, rfl, .some both, searches'⟩
      | error e =>
        obtain ⟨between, firsts⟩ := ihFirst _ _ _ _ _ ran held
        rw [(Search.noted_passOver name referrer e middle).state] at between
        obtain ⟨before, follows⟩ := ihFollow _ _ _ _ _ one between
        refine ⟨before, fun referrer' s' referrers searches => ?_⟩
        obtain ⟨⟨result', middle'⟩, one', results, searches'⟩ := follows _ _ referrers searches
        rw [Search.firstOf, one']
        cases results with
        | error both => exact firsts _ _ referrers (searches'.passOver referrers _ both)
  · intro lookup ih name target referrer s r ran held
    split at ran
    · obtain ⟨before, looks⟩ := ih _ _ _ _ ran held
      refine ⟨before, fun referrer' s' referrers searches => ?_⟩
      rw [Search.follow]
      exact looks _ _ lockstep.refl searches
    · cases ran
      refine ⟨held, fun referrer' s' referrers searches => ?_⟩
      rw [Search.follow]
      exact ⟨_, rfl, .error (.symbolNotFound referrers), searches.report referrers _ .same⟩

-- What a run comes to: results that are alike, from works that are.
def Comes (like : Path → Path → Prop) (together : σ → τ → Prop) (good : α → α → Prop) (r : Except ResolveError α × Work σ)
    (r' : Except ResolveError α × Work τ) : Prop :=
  Agrees (ResolveError.Like like) good r.1 r'.1 ∧ Work.Like like together r.2 r'.2

theorem resolve_sound (lockstep : Lockstep p q like together sound)
    (resolved : ComponentAtlas.resolve p kinds reference w = some r) (held : sound r.2.state) :
    sound w.state ∧ ∀ reference' w', reference.Like like reference' → Work.Like like together w w' →
      ∃ r', ComponentAtlas.resolve q kinds reference' w' = some r' ∧ Comes like together (Symbol.Like like) r r' := by
  obtain ⟨⟨result, s⟩, ran, equal⟩ := Option.bind_eq_some_iff.mp resolved
  cases equal
  let request : Request := { kinds, origin := reference }
  have same : request.kinds = request.kinds := rfl
  refine ⟨(lockstep.lookup_sound same rfl ran held).1, fun reference' w' references works => ?_⟩
  let request' : Request := { kinds, origin := reference' }
  have kinds_eq : request.kinds = request'.kinds := rfl
  obtain ⟨⟨result', s'⟩, ran', results, searches⟩ := (lockstep.lookup_sound kinds_eq references.package ran held).2 _
    { work := w', visited := [] } references.file ⟨works, rfl⟩
  refine ⟨(result', s'.work), ?_, results, searches.work⟩
  rw [ComponentAtlas.resolve, ← references.name, ran']
  rfl

theorem resolve (lockstep : Lockstep p q like together) {reference reference' : Reference}
    (references : reference.Like like reference') (works : Work.Like like together w w')
    (resolved : ComponentAtlas.resolve p kinds reference w = some r) :
    ∃ r', ComponentAtlas.resolve q kinds reference' w' = some r' ∧ Comes like together (Symbol.Like like) r r' :=
  (lockstep.resolve_sound resolved trivial).2 _ _ references works

theorem ofParents (symbols : symbol.Like like symbol') (parents : List.Forall₂ (Lineage.Like like) above above') :
    (Lineage.ofParents symbol above).Like like (Lineage.ofParents symbol' above') := by
  have interfaces : ∀ {rest rest'}, List.Forall₂ (Lineage.Like like) rest rest' →
      List.Forall₂ (Symbol.Like like) (rest.map (·.symbol)) (rest'.map (·.symbol)) := by
    intro rest rest' alike
    rw [List.forall₂_map_left_iff, List.forall₂_map_right_iff]
    exact alike.imp fun _ _ both => both.symbol
  unfold Lineage.ofParents
  rw [← symbols.declaration]
  cases symbol.declaration with
  | interfaceDecl | aliasDecl | enumDecl => exact ⟨symbols, .none, interfaces parents⟩
  | classDecl d =>
    obtain ⟨_, _, _, superclass, _, _, _⟩ := d
    cases superclass with
    | none => exact ⟨symbols, .none, interfaces parents⟩
    | some heritage =>
      cases parents with
      | nil => exact ⟨symbols, .none, .nil⟩
      | @cons top top' _ _ first rest =>
        have kinds : top.symbol.kind = top'.symbol.kind := by
          rw [Symbol.kind, Symbol.kind, first.symbol.declaration]
        refine ⟨symbols, ?_, interfaces rest⟩
        dsimp only [Lineage.superclass]
        rw [kinds]
        split
        · exact .some first.symbol
        · exact .none

theorem resolveHeritage (lockstep : Lockstep p q like together sound)
    (resolved : Link.resolveHeritage p child edge w = some r) (held : sound r.2.state) :
    sound w.state ∧ ∀ child' w', child.Like like child' → Work.Like like together w w' →
      ∃ r', Link.resolveHeritage q child' edge w' = some r' ∧ Comes like together (Symbol.Like like) r r' := by
  unfold Link.resolveHeritage at resolved
  split at resolved
  · rename_i form
    cases resolved
    refine ⟨held, fun child' w' children works => ?_⟩
    unfold Link.resolveHeritage
    rw [form]
    refine ⟨_, rfl, .error ?_, works⟩
    rw [Link.unsupported, Link.unsupported, children.name]
    exact .unsupportedHeritage children.file
  · rename_i name form
    obtain ⟨before, resolves⟩ := lockstep.resolve_sound resolved held
    refine ⟨before, fun child' w' children works => ?_⟩
    unfold Link.resolveHeritage
    rw [form]
    let reference' : Reference := { Reference.of name child'.file with package := child'.package }
    exact resolves reference' w' ⟨rfl, children.file, children.package⟩ works

theorem admitted (children : child.Like like child') (parents : parent.Like like parent') (heritage : Heritage) :
    Agrees (ResolveError.Like like) Eq (Link.admitted child heritage parent) (Link.admitted child' heritage parent') := by
  have kinds : child.kind = child'.kind := by rw [Symbol.kind, Symbol.kind, children.declaration]
  have kinds' : parent.kind = parent'.kind := by rw [Symbol.kind, Symbol.kind, parents.declaration]
  have names : parent.name = parent'.name := parents.reference.name
  rw [Link.admitted, Link.admitted, kinds, kinds', names, Link.unsupported, Link.unsupported, children.reference.name]
  split
  · exact .error (.unsupportedHeritage children.reference.file)
  · exact .ok rfl

theorem link_sound (lockstep : Lockstep p q like together sound) (linked : w.link p ancestry symbol = some r)
    (held : sound r.2.state) :
    sound w.state ∧ ∀ symbol' w', symbol.Like like symbol' → Work.Like like together w w' →
      ∃ r', w'.link q ancestry symbol' = some r' ∧ Comes like together (Lineage.Like like) r r' := by
  refine (Work.link.mutual_partial_correctness p
    (fun ancestry symbol w r => sound r.2.state → sound w.state ∧
      ∀ symbol' w', symbol.Like like symbol' → Work.Like like together w w' →
        ∃ r', w'.link q ancestry symbol' = some r' ∧ Comes like together (Lineage.Like like) r r')
    (fun ancestry child entries w r => sound r.2.state → sound w.state ∧
      ∀ child' w', child.Like like child' → Work.Like like together w w' →
        ∃ r', w'.linkAll q ancestry child' entries = some r' ∧
          Comes like together (List.Forall₂ (Lineage.Like like)) r r')
    (fun ancestry child edge w r => sound r.2.state → sound w.state ∧
      ∀ child' w', child.Like like child' → Work.Like like together w w' →
        ∃ r', w'.linkParent q ancestry child' edge = some r' ∧ Comes like together (Lineage.Like like) r r')
    ?_ ?_ ?_).1 _ _ _ _ linked held
  · intro linkAll ih ancestry symbol w r linked held
    split at linked
    · rename_i again
      cases linked
      refine ⟨held, fun symbol' w' symbols works => ?_⟩
      rw [Work.link, ← lockstep.symbol_hop symbols, if_pos again]
      refine ⟨_, rfl, .error ?_, works⟩
      rw [Link.cyclic, Link.cyclic, Symbol.name, Symbol.name, symbols.reference.name]
      exact .cyclicHierarchy symbols.reference.file
    · rename_i fresh
      obtain ⟨⟨result, middle⟩, all, linked⟩ := Option.bind_eq_some_iff.mp linked
      have between : sound middle.state := by
        cases result with
        | error e =>
          cases linked
          exact held
        | ok parents =>
          cases linked
          unfold Link.noteLinked at held
          split at held <;> exact held
      obtain ⟨before, links⟩ := ih _ _ _ _ _ all between
      refine ⟨before, fun symbol' w' symbols works => ?_⟩
      obtain ⟨⟨result', middle'⟩, all', results, works'⟩ := links _ _ symbols works
      rw [Work.link, ← lockstep.symbol_hop symbols, ← symbols.declaration, if_neg fresh, all']
      cases results with
      | error both =>
        cases linked
        exact ⟨_, rfl, .error both, works'⟩
      | ok both =>
        cases linked
        exact ⟨_, rfl, .ok (ofParents symbols both), works'.noteLinked _ _⟩
  · intro linkAll linkParent ihAll ihParent ancestry child entries w r linked held
    split at linked
    · cases linked
      refine ⟨held, fun child' w' children works => ?_⟩
      rw [Work.linkAll]
      exact ⟨_, rfl, .ok .nil, works⟩
    · obtain ⟨⟨result, middle⟩, one, linked⟩ := Option.bind_eq_some_iff.mp linked
      cases result with
      | error e =>
        cases linked
        obtain ⟨before, links⟩ := ihParent _ _ _ _ _ one held
        refine ⟨before, fun child' w' children works => ?_⟩
        obtain ⟨⟨result', middle'⟩, one', results, works'⟩ := links _ _ children works
        rw [Work.linkAll, one']
        cases results with
        | error both => exact ⟨_, rfl, .error both, works'⟩
      | ok lineage =>
        obtain ⟨⟨rest, last⟩, all, linked⟩ := Option.bind_eq_some_iff.mp linked
        have late : sound last.state := by
          cases rest with
          | error e =>
            cases linked
            exact held
          | ok lineages =>
            cases linked
            exact held
        obtain ⟨between, linksAll⟩ := ihAll _ _ _ _ _ all late
        obtain ⟨before, links⟩ := ihParent _ _ _ _ _ one between
        refine ⟨before, fun child' w' children works => ?_⟩
        obtain ⟨⟨result', middle'⟩, one', results, works'⟩ := links _ _ children works
        obtain ⟨⟨rest', last'⟩, all', rests, works''⟩ := linksAll _ _ children works'
        rw [Work.linkAll, one']
        cases results with
        | ok first =>
          simp only [Option.bind_eq_bind, Option.bind_some, all']
          cases rests with
          | error both =>
            cases linked
            exact ⟨_, rfl, .error both, works''⟩
          | ok rest =>
            cases linked
            exact ⟨_, rfl, .ok (.cons first rest), works''⟩
  · intro link ih ancestry child edge w r linked held
    obtain ⟨⟨result, middle⟩, resolved, linked⟩ := Option.bind_eq_some_iff.mp linked
    cases result with
    | error e =>
      cases linked
      obtain ⟨before, resolves⟩ := lockstep.resolveHeritage resolved held
      refine ⟨before, fun child' w' children works => ?_⟩
      obtain ⟨⟨result', middle'⟩, resolved', results, works'⟩ := resolves _ _ children.reference works
      rw [Work.linkParent, resolved']
      cases results with
      | error both => exact ⟨_, rfl, .error both, works'⟩
    | ok parent =>
      obtain ⟨⟨above, last⟩, linkedAbove, linked⟩ := Option.bind_eq_some_iff.mp linked
      have late : sound last.state := by
        cases above with
        | error e =>
          cases linked
          exact held
        | ok lineage =>
          dsimp only at linked
          split at linked <;> cases linked <;> exact held
      obtain ⟨between, links⟩ := ih _ _ _ _ linkedAbove late
      obtain ⟨before, resolves⟩ := lockstep.resolveHeritage resolved between
      refine ⟨before, fun child' w' children works => ?_⟩
      obtain ⟨⟨result', middle'⟩, resolved', results, works'⟩ := resolves _ _ children.reference works
      rw [Work.linkParent, resolved']
      cases results with
      | ok parents =>
        obtain ⟨⟨above', last'⟩, linkedAbove', aboves, works''⟩ := links _ _ parents works'
        simp only [Option.bind_eq_bind, Option.bind_some, linkedAbove']
        cases aboves with
        | error both =>
          cases linked
          exact ⟨_, rfl, .error both, works''⟩
        | ok lineages =>
          have passes := admitted children parents edge.heritage
          dsimp only at linked ⊢
          generalize Link.admitted child edge.heritage _ = one at linked passes
          generalize Link.admitted child' edge.heritage _ = two at passes
          cases passes with
          | error both =>
            cases linked
            exact ⟨_, rfl, .error both, works''⟩
          | ok =>
            cases linked
            exact ⟨_, rfl, .ok lineages, works''⟩

end Lockstep

namespace ExportList.Like

variable {l l' : ExportList}

theorem isTaken (alike : l.Like like l') (name : String) : l.isTaken name = l'.isTaken name := by
  have listed : ∀ m : Ordered ExportedClass, m.contains name = decide (name ∈ m.keys) := by
    intro m
    rw [Bool.eq_iff_iff, Ordered.contains, Ordered.get?_isSome_iff, decide_eq_true_iff]
  have failed : l.failed.any (·.1 = name) = l'.failed.any (·.1 = name) := by
    have both := alike.failed
    generalize l.failed = one at both
    generalize l'.failed = two at both
    induction both with
    | nil => rfl
    | cons first _ ih => rw [List.any_cons, List.any_cons, first.1, ih]
  rw [ExportList.isTaken, ExportList.isTaken, listed, listed, alike.keys, failed]

theorem insert (alike : l.Like like l') {c c' : ExportedClass}
    (declarations : Hop.of c.declaredIn c.declaredName = Hop.of c'.declaredIn c'.declaredName) (name : String) :
    (l.insert name c).Like like (l'.insert name c') := by
  unfold ExportList.insert
  rw [← alike.isTaken, ← declarations, ← alike.names]
  split
  · exact alike
  · refine ⟨?_, alike.failed, rfl⟩
    rw [Ordered.keys_insert, Ordered.keys_insert, alike.keys]

theorem fail (alike : l.Like like l') (errors : e.Like like e') (name : String) :
    (l.fail name e).Like like (l'.fail name e') :=
  ⟨alike.keys, List.rel_append alike.failed (.cons ⟨rfl, errors⟩ .nil), alike.names⟩

end ExportList.Like

structure Enumeration.Like (like : Path → Path → Prop) (together : σ → τ → Prop) (s : Enumeration σ)
    (s' : Enumeration τ) : Prop where
  work : Work.Like like together s.work s'.work
  visited : s.visited = s'.visited
  found : s.found.Like like s'.found

namespace Lockstep

theorem addClasses (lockstep : Lockstep p q like together) (paths : like path path') (names : List String)
    (lists : l.Like like l') : (Enumeration.addClasses path names l).Like like (Enumeration.addClasses path' names l') := by
  induction names generalizing l l' with
  | nil => exact lists
  | cons name rest ih =>
    have longer : (l.insert name { via := path, declaredName := name, declaredIn := path }).Like like
        (l'.insert name { via := path', declaredName := name, declaredIn := path' }) :=
      lists.insert (by exact lockstep.hop paths name) name
    exact ih longer

theorem addReexport (lockstep : Lockstep p q like together) (paths : like path path')
    (alike : Enumeration.Like like together s s') (added : Enumeration.addReexport p path s name = some r) :
    ∃ r', Enumeration.addReexport q path' s' name = some r' ∧ Enumeration.Like like together r r' := by
  unfold Enumeration.addReexport at added ⊢
  rw [← alike.found.isTaken]
  split at added
  · rename_i taken
    cases added
    rw [if_pos taken]
    exact ⟨_, rfl, alike⟩
  · rename_i free
    rw [if_neg free]
    obtain ⟨⟨result, work⟩, resolved, added⟩ := Option.bind_eq_some_iff.mp added
    have references : (Reference.of name path).Like like (.of name path') := ⟨rfl, paths, rfl⟩
    obtain ⟨⟨result', work'⟩, resolved', results, works⟩ := lockstep.resolve references alike.work resolved
    rw [resolved']
    cases results with
    | @ok symbol symbol' both =>
      cases added
      have lists : (s.found.insert name { via := path, declaredName := symbol.name, declaredIn := symbol.file }).Like like
          (s'.found.insert name { via := path', declaredName := symbol'.name, declaredIn := symbol'.file }) :=
        alike.found.insert (by exact lockstep.symbol_hop both) name
      exact ⟨_, rfl, works, alike.visited, lists⟩
    | error both =>
      simp only [Option.bind_eq_bind, Option.bind_some]
      dsimp only at added
      rw [both.isSymbolNotFound] at added
      split at added
      · rename_i missing
        cases added
        rw [if_pos missing]
        exact ⟨_, rfl, works, alike.visited, alike.found⟩
      · rename_i other
        cases added
        rw [if_neg other]
        exact ⟨_, rfl, works.say _ _ _ _ _ _, alike.visited, alike.found.fail both name⟩

theorem addReexports (lockstep : Lockstep p q like together) (paths : like path path')
    {names : List String}
    (alike : Enumeration.Like like together s s') (added : names.foldlM (Enumeration.addReexport p path) s = some r) :
    ∃ r', names.foldlM (Enumeration.addReexport q path') s' = some r' ∧ Enumeration.Like like together r r' := by
  induction names generalizing s s' with
  | nil =>
    cases added
    exact ⟨_, rfl, alike⟩
  | cons name rest ih =>
    obtain ⟨middle, one, added⟩ := Option.bind_eq_some_iff.mp added
    obtain ⟨middle', one', alike'⟩ := lockstep.addReexport paths alike one
    obtain ⟨r', all, alike''⟩ := ih alike' added
    exact ⟨r', by rw [List.foldlM_cons, one']; exact all, alike''⟩

theorem addFile (lockstep : Lockstep p q like together) (paths : like path path')
    (alike : Enumeration.Like like together s s') (added : s.addFile p path index = some r) :
    ∃ r', s'.addFile q path' index = some r' ∧ Enumeration.Like like together r r' := by
  refine (Enumeration.addFile.mutual_partial_correctness p
    (fun path index s r => ∀ path' s', like path path' → Enumeration.Like like together s s' →
      ∃ r', s'.addFile q path' index = some r' ∧ Enumeration.Like like together r r')
    (fun path targets s r => ∀ path' s', like path path' → Enumeration.Like like together s s' →
      ∃ r', s'.addTargets q path' targets = some r' ∧ Enumeration.Like like together r r')
    (fun path s r => ∀ s', Enumeration.Like like together s s' →
      ∃ r', s'.visit q path = some r' ∧ Enumeration.Like like together r r')
    ?_ ?_ ?_).1 _ _ _ _ added _ _ paths alike
  · intro addTargets ih path index s r added path' s' paths alike
    have places : path.components = path'.components := lockstep.same paths
    rw [Enumeration.addFile, ← places, ← alike.visited]
    split at added
    · rename_i seen
      cases added
      rw [if_pos seen]
      exact ⟨_, rfl, alike⟩
    · rename_i fresh
      rw [if_neg fresh]
      obtain ⟨middle, own, added⟩ := Option.bind_eq_some_iff.mp added
      have entered : Enumeration.Like like together
          { s with
            visited := path.components :: s.visited
            found := Enumeration.addClasses path index.exportedClasses.keys s.found }
          { s' with
            visited := path'.components :: s'.visited
            found := Enumeration.addClasses path' index.exportedClasses.keys s'.found } :=
        ⟨alike.work, congrArg₂ List.cons places alike.visited, lockstep.addClasses paths _ alike.found⟩
      obtain ⟨middle', own', alike'⟩ := lockstep.addReexports paths entered own
      rw [Enumeration.addOwn, own']
      exact ih _ _ _ _ added _ _ paths alike'
  · intro addTargets visit ihTargets ihVisit path targets s r added path' s' paths alike
    rw [Enumeration.addTargets.eq_def]
    split at added
    · cases added
      exact ⟨_, rfl, alike⟩
    · obtain ⟨middle, one, added⟩ := Option.bind_eq_some_iff.mp added
      obtain ⟨middle', one', alike'⟩ := ihVisit _ _ _ one _ alike
      rw [one']
      exact ihTargets _ _ _ _ added _ _ paths alike'
    · exact ihTargets _ _ _ _ added _ _ paths ⟨alike.work.report paths _ .same, alike.visited, alike.found⟩
  · intro addFile ih path s r added s' alike
    have paths : like path path := lockstep.refl
    obtain ⟨opened, works⟩ := lockstep.openFile alike.work paths trivial
    rw [Enumeration.visit]
    generalize s.work.openFile p path = one at added opened works
    generalize s'.work.openFile q path = two at opened works
    obtain ⟨one, work⟩ := one
    obtain ⟨two, work'⟩ := two
    cases opened with
    | error both =>
      cases added
      exact ⟨_, rfl, works.report lockstep.refl _ (.failure both), alike.visited, alike.found⟩
    | ok both =>
      rename_i x x'
      obtain ⟨file, index⟩ := x
      obtain ⟨file', index'⟩ := x'
      obtain ⟨files, rfl⟩ := both
      exact ih _ _ _ _ added _ _ files.path ⟨works, alike.visited, alike.found⟩

theorem exportedClasses (lockstep : Lockstep p q like together) (paths : like entry entry')
    (works : Work.Like like together w w') (enumerated : ComponentAtlas.exportedClasses p entry w = some r) :
    ∃ r', ComponentAtlas.exportedClasses q entry' w' = some r' ∧ Comes like together (ExportList.Like like) r r' := by
  obtain ⟨opened, works⟩ := lockstep.openFile works paths trivial
  unfold ComponentAtlas.exportedClasses at enumerated ⊢
  generalize w.openFile p entry = one at enumerated opened works
  generalize w'.openFile q entry' = two at opened works
  obtain ⟨one, work⟩ := one
  obtain ⟨two, work'⟩ := two
  cases opened with
  | error both =>
    cases enumerated
    exact ⟨_, rfl, .error both, works⟩
  | ok both =>
    rename_i x x'
    obtain ⟨file, index⟩ := x
    obtain ⟨file', index'⟩ := x'
    obtain ⟨files, rfl⟩ := both
    obtain ⟨s, added, equal⟩ := Option.bind_eq_some_iff.mp enumerated
    cases equal
    have starts : Enumeration.Like like together { work, visited := [], found := .empty }
        { work := work', visited := [], found := .empty } := ⟨works, rfl, rfl, .nil, rfl⟩
    obtain ⟨s', added', alike⟩ := lockstep.addFile files.path starts added
    dsimp only
    rw [added']
    exact ⟨_, rfl, .ok alike.found, alike.work⟩

end Lockstep

variable {P : σ → Prop}

theorem Lockstep.of_kept (kept : ∀ state path, P state → P (p.load path state).state) :
    Lockstep p p Eq fun state state' => state = state' ∧ P state where
  refl := rfl
  same := by rintro _ _ rfl; rfl
  load := by
    rintro state _ path _ ⟨rfl, holds⟩ rfl -
    refine ⟨?_, rfl, kept state path holds⟩
    cases (p.load path state).result with
    | ok file => exact .ok ⟨rfl, rfl⟩
    | error e => exact .error (.refl (fun _ => rfl) e)

theorem Work.Like.self (holds : P w.state) : Work.Like Eq (fun state state' => state = state' ∧ P state) w w :=
  ⟨⟨rfl, holds⟩, List.forall₂_same.mpr fun _ _ => ⟨rfl, rfl, rfl, .same⟩⟩

end
end ComponentAtlas
