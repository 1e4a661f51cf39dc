import ComponentAtlas.Generate.Run
import ComponentAtlas.Proofs.LibraryMemo

namespace ComponentAtlas
open Outline

theorem List.map_eq_of_forall₂ {R : α → β → Prop} {f : α → γ} {g : β → γ} {xs : List α} {ys : List β}
    (equal : ∀ x y, R x y → f x = g y) (related : List.Forall₂ R xs ys) : xs.map f = ys.map g := by
  induction related with
  | nil => rfl
  | cons first _ ih => rw [List.map_cons, List.map_cons, equal _ _ first, ih]

namespace Descriptor

variable {like : Path → Path → Prop}

theorem parentId_like (same : ∀ p q, like p q → p.Same q) {exports exports' : ExportList}
    (names : exports.names = exports'.names) (base : String) {parent parent' : Symbol}
    (parents : parent.Like like parent') : parentId base exports parent = parentId base exports' parent' := by
  have hops : Hop.of parent.file parent.name = Hop.of parent'.file parent'.name := by
    rw [Hop.of, Hop.of, Symbol.name, Symbol.name, parents.reference.name]
    exact congrArg (Hop.mk · _) (same _ _ parents.reference.file)
  have called : parent.name = parent'.name := parents.reference.name
  rw [parentId, parentId, ExportList.exportedName?, ExportList.exportedName?, hops, names, called]

theorem ofLineage?_like (same : ∀ p q, like p q → p.Same q) {exports exports' : ExportList}
    (names : exports.names = exports'.names) (base name : String) {lineage lineage' : Lineage}
    (lineages : lineage.Like like lineage') :
    ofLineage? base name lineage exports = ofLineage? base name lineage' exports' := by
  have parents : (lineage.superclass.toList ++ lineage.interfaces).map (parentId base exports ·.symbol) =
      (lineage'.superclass.toList ++ lineage'.interfaces).map (parentId base exports' ·.symbol) := by
    have above : List.Forall₂ (Symbol.Like like) (lineage.superclass.toList.map (·.symbol))
        (lineage'.superclass.toList.map (·.symbol)) := by
      have both := lineages.superclass
      cases one : lineage.superclass <;> cases two : lineage'.superclass <;> rw [one, two] at both
      · exact .nil
      · cases both
      · cases both
      · cases both with
        | some both => exact .cons both .nil
    have equal : ∀ x y, Symbol.Like like x y → parentId base exports x = parentId base exports' y :=
      fun _ _ => parentId_like same names base
    have all := List.map_eq_of_forall₂ equal (List.rel_append above lineages.interfaces)
    simpa only [← List.map_append, List.map_map, Function.comp_def] using all
  have declarations := lineages.symbol.declaration
  have generics : lineage.symbol.generics = lineage'.symbol.generics := by
    rw [Symbol.generics, Symbol.generics, declarations]
  have comment : lineage.symbol.comment = lineage'.symbol.comment := by
    rw [Symbol.comment, Symbol.comment, declarations]
  rw [ofLineage?, ofLineage?, declarations]
  cases lineage'.symbol.declaration with
  | classDecl d =>
    dsimp only
    rw [parents, comment, genericsOf, genericsOf, generics]
  | interfaceDecl | aliasDecl | enumDecl => rfl

end Descriptor

namespace Generate

variable {σ τ : Type}

-- How exports, classes and their lineages are found.
structure Means (σ : Type) where
  exports : Path → Work σ → Option (Except ResolveError ExportList × Work σ)
  resolve : Reference → Work σ → Option (Except ResolveError Symbol × Work σ)
  link : Symbol → Work σ → Option (Except ResolveError Lineage × Work σ)

def Means.of (p : Provider σ) : Means σ :=
  { exports := exportedClasses p, resolve := ComponentAtlas.resolve p .classes, link := loadLineage p }

def lineageBy (means : Means σ) (plan : Plan) (name : String) (w : Work σ) :
    Option (Except ResolveError Lineage × Work σ) :=
  (means.resolve { Reference.of name plan.entry with package := some plan.package.name } w).bind fun
    | (.error e, w) => some (.error e, w)
    | (.ok symbol, w) => means.link symbol w

def toDescriptor (plan : Plan) (name : String) : Except ResolveError Lineage → Except GenerateError Descriptor
  | .error e => .error (.resolve e)
  | .ok lineage =>
    match Descriptor.ofLineage? plan.package.name name lineage plan.exports with
    | none => .error (.resolve (.symbolNotFound name plan.entry))
    | some descriptor => .ok descriptor

def describeBy (means : Means σ) (plan : Plan) (name : String) (w : Work σ) :
    Option (Except GenerateError Descriptor × Work σ) :=
  (lineageBy means plan name w).map fun (result, w) => (toDescriptor plan name result, w)

theorem describe_eq (plan : Plan) (name : String) (w : Work Library) :
    describe plan name w = describeBy (.of Library.provider) plan name w := by
  unfold describe describeBy lineageBy
  simp only [Means.of]
  cases resolve Library.provider .classes { Reference.of name plan.entry with package := some plan.package.name } w with
  | none => rfl
  | some found =>
    obtain ⟨_ | symbol, w⟩ := found
    · rfl
    · change (loadLineage Library.provider symbol w).bind _ = (loadLineage Library.provider symbol w).map _
      cases loadLineage Library.provider symbol w with
      | none => rfl
      | some linked =>
        obtain ⟨_ | lineage, w⟩ := linked
        · rfl
        · simp only [Option.bind_some, Option.map_some, toDescriptor]
          cases Descriptor.ofLineage? plan.package.name name lineage plan.exports <;> rfl

variable {like : Path → Path → Prop} {together : Library → Library → Prop} {plan plan' : Plan}
  {w w' : Work Library}

structure Plan.Like (like : Path → Path → Prop) (plan plan' : Plan) : Prop where
  package : plan.package.name = plan'.package.name
  entry : like plan.entry plan'.entry
  names : plan.exports.names = plan'.exports.names

theorem lineageBy_sound {p : Provider σ} {q : Provider τ} {together : σ → τ → Prop} {sound : σ → Prop} {w : Work σ}
    (lockstep : Lockstep p q like together sound) (linked : lineageBy (.of p) plan name w = some r)
    (held : sound r.2.state) :
    sound w.state ∧ ∀ plan' w', plan.Like like plan' → Work.Like like together w w' →
      ∃ r', lineageBy (.of q) plan' name w' = some r' ∧ Lockstep.Comes like together (Lineage.Like like) r r' := by
  obtain ⟨⟨result, between⟩, resolved, linked⟩ := Option.bind_eq_some_iff.mp linked
  have references : ∀ plan' : Plan, plan.Like like plan' → Reference.Like like
      { Reference.of name plan.entry with package := some plan.package.name }
      { Reference.of name plan'.entry with package := some plan'.package.name } :=
    fun plan' plans => ⟨rfl, plans.entry, congrArg some plans.package⟩
  cases result with
  | error e =>
    cases linked
    obtain ⟨before, resolves⟩ := lockstep.resolve_sound resolved held
    refine ⟨before, fun plan' w' plans works => ?_⟩
    obtain ⟨⟨result', between'⟩, resolved', results, works'⟩ := resolves _ _ (references plan' plans) works
    cases results with
    | error both => exact ⟨_, Option.bind_eq_some_iff.mpr ⟨_, resolved', rfl⟩, .error both, works'⟩
  | ok symbol =>
    obtain ⟨middle, links⟩ := lockstep.link_sound linked held
    obtain ⟨before, resolves⟩ := lockstep.resolve_sound resolved middle
    refine ⟨before, fun plan' w' plans works => ?_⟩
    obtain ⟨⟨result', between'⟩, resolved', results, works'⟩ := resolves _ _ (references plan' plans) works
    cases results with
    | ok symbols =>
      obtain ⟨r', linked', comes⟩ := links _ _ symbols works'
      exact ⟨r', Option.bind_eq_some_iff.mpr ⟨_, resolved', linked'⟩, comes⟩

theorem toDescriptor_like (same : ∀ p q, like p q → p.Same q) (plans : plan.Like like plan') (name : String)
    (founds : Agrees (ResolveError.Like like) (Lineage.Like like) found found') :
    Agrees (fun e e' => ∃ f f', e = .resolve f ∧ e' = .resolve f' ∧ f.Like like f') Eq (toDescriptor plan name found)
      (toDescriptor plan' name found') := by
  unfold toDescriptor
  cases founds with
  | error both => exact .error ⟨_, _, rfl, rfl, both⟩
  | ok lineages =>
    dsimp only
    rw [Descriptor.ofLineage?_like same plans.names _ _ lineages, plans.package]
    split
    · exact .error ⟨_, _, rfl, rfl, .symbolNotFound plans.entry⟩
    · exact .ok rfl

theorem describe_lockstep (lockstep : Lockstep Library.provider Library.provider like together)
    (plans : plan.Like like plan') (works : Work.Like like together w w')
    (described : describe plan name w = some r) :
    ∃ r', describe plan' name w' = some r' ∧
      Agrees (fun e e' => ∃ f f', e = .resolve f ∧ e' = .resolve f' ∧ f.Like like f') Eq r.1 r'.1 ∧
      Work.Like like together r.2 r'.2 := by
  rw [describe_eq] at described
  obtain ⟨⟨found, after⟩, linked, equal⟩ := Option.map_eq_some_iff.mp described
  cases equal
  obtain ⟨⟨found', after'⟩, linked', founds, works'⟩ :=
    (lineageBy_sound lockstep linked trivial).2 _ _ plans works
  refine ⟨(toDescriptor plan' name found', after'), ?_, toDescriptor_like (fun _ _ => lockstep.same) plans name founds, works'⟩
  rw [describe_eq]
  exact Option.map_eq_some_iff.mpr ⟨_, linked', rfl⟩

theorem describe_kept {P : Library → Prop} (kept : ∀ l path, P l → P (Library.load path l).state) (holds : P w.state)
    (described : describe plan name w = some r) : P r.2.state := by
  obtain ⟨_, _, -, after⟩ := describe_lockstep (Lockstep.of_kept kept) ⟨rfl, rfl, rfl⟩ (.self holds) described
  exact after.state.2

theorem describe_interchangeable (described : describe plan name w = some r) :
    r.2.state.Interchangeable w.state :=
  describe_kept (P := (·.Interchangeable w.state)) (fun l path alike => (l.load_interchangeable path).trans alike)
    (.refl _) described

theorem writeDescriptor_error (failed : (writeDescriptor path descriptor w).1 = .error e) :
    (writeDescriptor path descriptor w).2 = w := by
  unfold writeDescriptor at failed ⊢
  split at failed
  · rfl
  · cases failed

-- An attempt that fails leaves the file tree and all answers as they were.
theorem generateClass_error (attempted : generateClass plan name w = some (.error e, w')) :
    w'.state.Interchangeable w.state := by
  unfold generateClass at attempted
  obtain ⟨⟨result, between⟩, described, attempted⟩ := Option.bind_eq_some_iff.mp attempted
  have kept := describe_interchangeable described
  cases result with
  | error e =>
    cases attempted
    exact kept
  | ok descriptor =>
    have written := Option.some.inj attempted
    have failed : (writeDescriptor (plan.fileFor name) descriptor between).1 = .error e := by rw [written]
    have left := writeDescriptor_error failed
    rw [written] at left
    cases left
    exact kept

-- From libraries that answer alike, an attempt comes to the same.
theorem generateClass_interchangeable (alike : w.state.Interchangeable w'.state)
    (attempted : generateClass plan name { w with diagnostics := [] } = some (.ok path, after)) :
    ∃ after', generateClass plan name { w' with diagnostics := [] } = some (.ok path, after') := by
  unfold generateClass at attempted ⊢
  obtain ⟨⟨result, between⟩, described, attempted⟩ := Option.bind_eq_some_iff.mp attempted
  have works : Work.Like w.state.tree.Twin (fun l l' => l.tree = w.state.tree ∧ l.Interchangeable l')
      { w with diagnostics := [] } { w' with diagnostics := [] } := ⟨⟨rfl, alike⟩, .nil⟩
  have plans : plan.Like w.state.tree.Twin plan := ⟨rfl, .inl rfl, rfl⟩
  obtain ⟨⟨result', between'⟩, described', results, works⟩ :=
    describe_lockstep (Library.lockstep w.state.tree) plans works described
  rw [described']
  cases results with
  | error => cases attempted
  | ok same =>
    cases same
    rename_i descriptor
    have tree : between.state.tree = between'.state.tree := works.state.2.tree
    have attempted := Option.some.inj attempted
    change ∃ after', some (writeDescriptor (plan.fileFor name) descriptor between') = some (.ok path, after')
    unfold writeDescriptor at attempted ⊢
    rw [← tree]
    dsimp only at attempted
    split at attempted
    · cases attempted
    · rename_i written
      cases attempted
      exact ⟨_, rfl⟩

end Generate
end ComponentAtlas
