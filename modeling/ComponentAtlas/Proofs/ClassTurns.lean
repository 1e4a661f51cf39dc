import ComponentAtlas.Proofs.AddedFiles

namespace ComponentAtlas
open Outline

section

variable {σ : Type}

def Provider.noting (p : Provider σ) : Provider (σ × List Path) where
  load path s :=
    let answer := p.load path s.1
    { result := answer.result, state := (answer.state, path :: s.2), log := answer.log }

def Work.noting (w : Work σ) : Work (σ × List Path) :=
  { state := (w.state, []), diagnostics := w.diagnostics, log := w.log }

theorem Lockstep.noting (p : Provider σ) : Lockstep p p.noting Eq fun state s => s.1 = state where
  refl := rfl
  same := by rintro _ _ rfl; rfl
  load := by
    rintro _ ⟨state, asked⟩ path _ rfl rfl -
    refine ⟨?_, rfl⟩
    change Agrees _ _ (p.load path state).result (p.load path state).result
    cases (p.load path state).result with
    | ok file => exact .ok ⟨rfl, rfl⟩
    | error e => exact .error (.refl (fun _ => rfl) e)

end

-- Libraries beside one start keep in step, while nothing is asked for that they could answer differently.
theorem Library.beside_lockstep (start : Library) (tree : FileTree) (places : Location → Prop) :
    Lockstep provider.noting provider start.tree.Twin
      (fun s l => s.1.tree = tree ∧ start.Beside places s.1 ∧ start.Beside places l)
      (fun s => ∀ path ∈ s.2, ∀ place, tree.Probes path place → ¬ places place) where
  refl := .inl rfl
  same := FileTree.Twin.same
  earlier held path member := held path (List.mem_cons_of_mem _ member)
  load := by
    rintro ⟨l, asked⟩ l' path path' ⟨rfl, one, two⟩ twin held
    exact ⟨one.answers two twin (held path List.mem_cons_self), l.load_tree path, one.load path, two.load path'⟩

namespace Generate

variable {plan : Plan} {w w' : Work Library} {start : Library} {places : Location → Prop}

def Asks (plan : Plan) (name : String) (w : Work Library) (path : Path) : Prop :=
  ∃ result noted, describeBy (.of Library.provider.noting) plan name w.noting = some (result, noted) ∧
    path ∈ noted.state.2

theorem describe_noted (described : describe plan name w = some (result, w')) :
    ∃ noted, describeBy (.of Library.provider.noting) plan name w.noting = some (result, noted) ∧
      noted.diagnostics = w'.diagnostics := by
  rw [describe_eq] at described
  obtain ⟨⟨found, after⟩, linked, equal⟩ := Option.map_eq_some_iff.mp described
  cases equal
  have works : Work.Like Eq (fun state s => s.1 = state) w w.noting :=
    ⟨rfl, List.forall₂_same.mpr fun _ _ => ⟨rfl, rfl, rfl, .same⟩⟩
  obtain ⟨⟨found', noted⟩, linked', founds, works'⟩ :=
    (lineageBy_sound (.noting Library.provider) linked trivial).2 plan _ ⟨rfl, rfl, rfl⟩ works
  have spelled : ∀ p q : Path, p = q → p.Same q := by
    rintro p _ rfl
    rfl
  have plans : plan.Like Eq plan := ⟨rfl, rfl, rfl⟩
  have results := toDescriptor_like spelled plans name founds
  have same : toDescriptor plan name found' = toDescriptor plan name found := by
    generalize toDescriptor plan name found = one at results
    generalize toDescriptor plan name found' = two at results
    cases results with
    | ok equal => rw [equal]
    | error both =>
      obtain ⟨_, _, rfl, rfl, alike⟩ := both
      rw [alike.eq]
  refine ⟨noted, Option.map_eq_some_iff.mpr ⟨_, linked', by dsimp only; rw [same]⟩, ?_⟩
  exact (List.forall₂_eq_eq_eq ▸ works'.diagnostics.imp fun _ _ => Diagnostic.Like.eq).symm

-- A class comes to the same descriptor from all libraries beside the start, if it asks for nothing that they differ in.
theorem describe_beside (one : start.Beside places w.state) (two : start.Beside places w'.state)
    (fresh : w.diagnostics = []) (fresh' : w'.diagnostics = [])
    (clear : ∀ path, Asks plan name w path → ∀ place, w.state.tree.Probes path place → ¬ places place)
    (described : describe plan name w = some (result, after)) :
    ∃ result' after', describe plan name w' = some (result', after') ∧
      Agrees (fun e e' => ∃ f f', e = .resolve f ∧ e' = .resolve f' ∧ f.Like start.tree.Twin f') Eq result result' ∧
      List.Forall₂ (Diagnostic.Like start.tree.Twin) after.diagnostics after'.diagnostics := by
  obtain ⟨noted, described', diagnostics⟩ := describe_noted described
  have held : ∀ path ∈ noted.state.2, ∀ place, w.state.tree.Probes path place → ¬ places place :=
    fun path member => clear path ⟨result, noted, described', member⟩
  obtain ⟨⟨found, _⟩, linked, equal⟩ := Option.map_eq_some_iff.mp described'
  cases equal
  have works : Work.Like start.tree.Twin
      (fun s l => s.1.tree = w.state.tree ∧ start.Beside places s.1 ∧ start.Beside places l) w.noting w' := by
    refine ⟨⟨rfl, one, two⟩, ?_⟩
    rw [Work.noting, fresh, fresh']
    exact .nil
  obtain ⟨⟨found', after'⟩, linked', founds, works'⟩ :=
    (lineageBy_sound (Library.beside_lockstep start w.state.tree places) linked held).2 plan w' ⟨rfl, .inl rfl, rfl⟩ works
  refine ⟨_, after', ?_, toDescriptor_like (fun _ _ => FileTree.Twin.same) ⟨rfl, .inl rfl, rfl⟩ name founds, ?_⟩
  · rw [describe_eq]
    exact Option.map_eq_some_iff.mpr ⟨_, linked', rfl⟩
  · rw [← diagnostics]
    exact works'.diagnostics

theorem Prepared.holds (ready : Prepared settings tree plan w) : w.state.tree.Holds plan.outputDir := by
  have grown := FileTree.makeDirectories_grows ready.output
  by_cases empty : plan.outputDir.text = ""
  · -- The package is read from the working directory then.
    have relative : settings.packageDir.text = "" := Path.text_of_join (ready.outputDir ▸ empty)
    obtain ⟨place, located⟩ := ready.package
    have named : Path.IsName "package.json" := by decide
    have file : Package.metadataPath settings.packageDir = ⟨"package.json"⟩ := Path.join_of_empty _ relative
    rw [file, FileTree.locate_eq (by decide), FileTree.start, Path.relative_of_isName named, Path.parts_of_isName named,
      FileTree.walk_cons] at located
    have directory : tree.entry? tree.workingDirectory = some .directory := by
      cases directory : tree.requireDirectory tree.workingDirectory with
      | ok => exact FileTree.requireDirectory_ok_iff.mp directory
      | error e =>
        rw [if_neg (by simp), directory] at located
        cases located
    have goal : tree.goal plan.outputDir = tree.workingDirectory := by
      rw [FileTree.goal]
      generalize plan.outputDir = d at empty
      obtain ⟨_⟩ := d
      cases empty
      rfl
    rw [FileTree.Holds, grown.goal, goal]
    exact ⟨grown.directory directory, fun full => absurd empty full⟩
  · obtain ⟨place, located, directory⟩ := FileTree.makeDirectories_located ready.output empty
    cases FileTree.goal_of_locate located
    exact ⟨directory, fun _ => located⟩

def Plan.output (plan : Plan) (t : FileTree) (name : String) : Location := t.goal plan.outputDir ++ [name ++ plan.extension]

section

variable {t : FileTree} (holds : t.Holds plan.outputDir) (named : Path.IsName (name ++ plan.extension))
include holds named

theorem locate_output (grown : t.Grows t') : t'.locate (plan.fileFor name) = .ok (plan.output t name) := by
  have there := (holds.grow grown).locate_joinText named
  rw [grown.goal] at there
  exact there

theorem writeDescriptor_output (grown : t.Grows w.state.tree) (descriptor : Descriptor) :
    (w.state.tree.entry? (plan.output t name) = some .directory ∧
      writeDescriptor (plan.fileFor name) descriptor w = (.error (.unwritable (plan.fileFor name) .isDirectory), w)) ∨
    (w.state.tree.entry? (plan.output t name) ≠ some .directory ∧ ∃ t' after,
      writeDescriptor (plan.fileFor name) descriptor w = (.ok (plan.fileFor name), after) ∧
      w.state.tree.Puts t' (plan.fileFor name) (.text descriptor.toJson.pretty) (plan.output t name) ∧
      after.state = { w.state with tree := t' } ∧ after.diagnostics = w.diagnostics) := by
  have located := locate_output holds named grown
  by_cases directory : w.state.tree.entry? (plan.output t name) = some .directory
  · refine .inl ⟨directory, ?_⟩
    unfold writeDescriptor FileTree.write
    rw [located]
    dsimp only
    rw [directory]
  · have above : w.state.tree.requireDirectory (plan.output t name).dropLast = .ok () := by
      rw [Plan.output, List.dropLast_concat, FileTree.requireDirectory_ok_iff]
      exact grown.directory holds.1
    have written : w.state.tree.write (plan.fileFor name) (.text descriptor.toJson.pretty) =
        .ok (w.state.tree.set (plan.output t name) (.file (.text descriptor.toJson.pretty))) :=
      FileTree.write_ok_iff.mpr ⟨plan.output t name, located, directory, above, rfl⟩
    obtain ⟨place, puts⟩ := FileTree.write_puts written
    have here := puts.located
    rw [locate_output holds named (grown.trans puts.grown)] at here
    cases here
    refine .inr ⟨directory, _, (writeDescriptor (plan.fileFor name) descriptor w).2, ?_, puts, ?_⟩
    · unfold writeDescriptor
      rw [written]
    · unfold writeDescriptor
      rw [written]
      exact ⟨rfl, rfl⟩

end

-- Whatever a class comes to, only its own place may differ more than before.
theorem generateClass_beside (holds : start.tree.Holds plan.outputDir) (named : Path.IsName (name ++ plan.extension))
    (beside : start.Beside places w.state) (attempted : generateClass plan name w = some (result, w')) :
    start.Beside (fun place => places place ∨ result.isOk = true ∧ place = plan.output start.tree name) w'.state := by
  obtain ⟨⟨found, between⟩, described, attempted⟩ := Option.bind_eq_some_iff.mp attempted
  have kept : start.Beside places between.state := describe_kept (fun _ path beside => beside.load path) beside described
  cases found with
  | error e =>
    cases attempted
    exact kept.mono fun _ => .inl
  | ok descriptor =>
    have written : writeDescriptor (plan.fileFor name) descriptor between = (result, w') := Option.some.inj attempted
    rcases writeDescriptor_output holds named kept.tree.grown descriptor with
      ⟨-, wrote⟩ | ⟨-, t', after, wrote, puts, state, -⟩
    · rw [wrote] at written
      cases written
      exact kept.mono fun _ => .inl
    · rw [wrote] at written
      cases written
      rw [state]
      refine (kept.put puts).mono fun place => Or.imp_right fun here => ⟨rfl, here⟩

end Generate

-- Failures that differ in the spelling of paths at most.
inductive GenerateError.Alike : GenerateError → GenerateError → Prop where
  | resolve (error : ResolveError.Like Path.Same e e') : Alike (.resolve e) (.resolve e')
  | same : Alike e e

namespace Generate

variable {plan : Plan} {w w' : Work Library} {start : Library} {places : Location → Prop}

theorem generateClass_alike (holds : start.tree.Holds plan.outputDir) (named : Path.IsName (name ++ plan.extension))
    (own : ¬ places (plan.output start.tree name)) (one : start.Beside places w.state) (two : start.Beside places w'.state)
    (fresh : w.diagnostics = []) (fresh' : w'.diagnostics = [])
    (clear : ∀ path, Asks plan name w path → ∀ place, w.state.tree.Probes path place → ¬ places place)
    (attempted : generateClass plan name w = some (result, after)) :
    ∃ result' after', generateClass plan name w' = some (result', after') ∧
      Agrees GenerateError.Alike Eq result result' ∧
      List.Forall₂ (Diagnostic.Like Path.Same) after.diagnostics after'.diagnostics ∧
      after'.state.tree.entry? (plan.output start.tree name) = after.state.tree.entry? (plan.output start.tree name) := by
  obtain ⟨⟨found, between⟩, described, attempted⟩ := Option.bind_eq_some_iff.mp attempted
  obtain ⟨found', between', described', founds, notes⟩ := describe_beside one two fresh fresh' clear described
  have kept := (describe_interchangeable described).tree
  have kept' := (describe_interchangeable described').tree
  have entries : between'.state.tree.entry? (plan.output start.tree name) =
      between.state.tree.entry? (plan.output start.tree name) := by
    dsimp only at kept kept'
    rw [kept, kept', one.tree.elsewhere own, two.tree.elsewhere own]
  have notes := notes.imp fun _ _ => Diagnostic.Like.imp fun _ _ => FileTree.Twin.same
  cases founds with
  | error both =>
    obtain ⟨e, e', rfl, rfl, errors⟩ := both
    cases attempted
    exact ⟨_, _, Option.bind_eq_some_iff.mpr ⟨_, described', rfl⟩,
      .error (.resolve (errors.imp fun _ _ => FileTree.Twin.same)), notes, entries⟩
  | @ok descriptor _ equal =>
    subst equal
    have written : writeDescriptor (plan.fileFor name) descriptor between = (result, after) := Option.some.inj attempted
    have ran : generateClass plan name w' = some (writeDescriptor (plan.fileFor name) descriptor between') :=
      Option.bind_eq_some_iff.mpr ⟨_, described', rfl⟩
    have grown : start.tree.Grows between.state.tree := kept ▸ one.tree.grown
    have grown' : start.tree.Grows between'.state.tree := kept' ▸ two.tree.grown
    rcases writeDescriptor_output holds named grown descriptor with
      ⟨directory, wrote⟩ | ⟨free, t, left, wrote, puts, state, diagnostics⟩
    · rcases writeDescriptor_output holds named grown' descriptor with ⟨-, wrote'⟩ | ⟨free', -⟩
      · rw [wrote] at written
        cases written
        exact ⟨_, _, ran.trans (congrArg some wrote'), .error .same, notes, entries⟩
      · rw [entries] at free'
        exact absurd directory free'
    · rcases writeDescriptor_output holds named grown' descriptor with
        ⟨directory', -⟩ | ⟨-, t', left', wrote', puts', state', diagnostics'⟩
      · rw [entries] at directory'
        exact absurd directory' free
      · rw [wrote] at written
        cases written
        refine ⟨_, _, ran.trans (congrArg some wrote'), .ok rfl, ?_, ?_⟩
        · rw [diagnostics, diagnostics']
          exact notes
        · rw [state, state']
          exact puts'.here.trans puts.here.symm

theorem output_inj {t : FileTree} (equal : plan.output t name = plan.output t other) : name = other := by
  have last : name ++ plan.extension = other ++ plan.extension := by simpa [Plan.output] using equal
  exact (String.append_left_inj _).mp last

def Others (plan : Plan) (t : FileTree) (outcomes : List Outcome) (name : String) (place : Location) : Prop :=
  ∃ o ∈ outcomes, o.name ≠ name ∧ o.result.isOk = true ∧ place = plan.output t o.name

theorem not_others (plan : Plan) (t : FileTree) (outcomes : List Outcome) (name : String) :
    ¬ Others plan t outcomes name (plan.output t name) := by
  rintro ⟨o, -, other, -, here⟩
  exact other (output_inj here).symm

theorem generateAll_beside (holds : start.tree.Holds plan.outputDir)
    (named : ∀ name ∈ names, Path.IsName (name ++ plan.extension)) (beside : start.Beside places w.state)
    (generated : generateAll plan names w = some (outcomes, w')) :
    start.Beside (fun place => places place ∨ ∃ o ∈ outcomes, o.result.isOk = true ∧ place = plan.output start.tree o.name)
      w'.state := by
  induction names generalizing w outcomes places with
  | nil =>
    cases generated
    exact beside.mono fun _ => .inl
  | cons name rest ih =>
    obtain ⟨result, done, later, attempted, all, rfl⟩ := generateAll_cons_iff.mp generated
    have first : start.Beside _ done.state :=
      generateClass_beside (w := { w with diagnostics := [] }) holds (named name List.mem_cons_self) beside attempted
    have named' : ∀ other ∈ rest, Path.IsName (other ++ plan.extension) :=
      fun other member => named other (List.mem_cons_of_mem _ member)
    refine (ih (w := { done with diagnostics := w.diagnostics }) named' first all).mono ?_
    rintro place ((before | ⟨ok, here⟩) | ⟨o, member, ok, here⟩)
    · exact .inl before
    · exact .inr ⟨_, List.mem_cons_self, ok, here⟩
    · exact .inr ⟨o, List.mem_cons_of_mem _ member, ok, here⟩

-- What a run looks like from the turn of one class: the classes before it have left their own descriptors, and those
-- behind it leave its descriptor alone.
theorem generateAll_reaches (holds : w.state.tree.Holds plan.outputDir)
    (named : ∀ name ∈ names, Path.IsName (name ++ plan.extension)) (distinct : names.Nodup)
    (generated : generateAll plan names w = some (outcomes, w')) (member : name ∈ names) :
    ∃ reached result left, Turn plan names w name reached ∧ reached.diagnostics = [] ∧
      generateClass plan name reached = some (result, left) ∧
      { name, result, diagnostics := left.diagnostics } ∈ outcomes ∧
      w.state.Beside (Others plan w.state.tree outcomes name) reached.state ∧
      w'.state.tree.entry? (plan.output w.state.tree name) = left.state.tree.entry? (plan.output w.state.tree name) := by
  obtain ⟨front, back, rfl⟩ := List.append_of_mem member
  obtain ⟨earlier, between, _, before, rest, rfl⟩ := generateAll_append_iff.mp generated
  obtain ⟨result, left, later, attempted, behind, rfl⟩ := generateAll_cons_iff.mp rest
  obtain ⟨-, apart, both⟩ := List.nodup_append.mp distinct
  have named' : ∀ other ∈ front, Path.IsName (other ++ plan.extension) :=
    fun other member => named other (List.mem_append_left _ member)
  have named'' : ∀ other ∈ back, Path.IsName (other ++ plan.extension) :=
    fun other member => named other (List.mem_append_right _ (List.mem_cons_of_mem _ member))
  have reached : w.state.Beside _ between.state :=
    generateAll_beside holds named' (.refl (fun _ => False) w.state) before
  have stepped : w.state.Beside _ left.state :=
    generateClass_beside (w := { between with diagnostics := [] }) holds (named name member) reached attempted
  refine ⟨_, result, left, ⟨front, back, earlier, between, rfl, before, rfl⟩, rfl, attempted, by simp, ?_, ?_⟩
  · refine reached.mono ?_
    rintro place (no | ⟨o, inside, ok, here⟩)
    · cases no
    · have among : o.name ∈ front := generateAll_names before ▸ List.mem_map_of_mem inside
      exact ⟨o, List.mem_append_left _ inside, both _ among _ List.mem_cons_self, ok, here⟩
  · have onward : left.state.Beside _ w'.state :=
      generateAll_beside (w := { left with diagnostics := between.diagnostics }) (holds.grow stepped.tree.grown) named''
        (.refl (fun _ => False) left.state) behind
    refine onward.tree.elsewhere ?_
    rintro (no | ⟨o, inside, -, here⟩)
    · cases no
    · have among : o.name ∈ back := generateAll_names behind ▸ List.mem_map_of_mem inside
      have goal : plan.output left.state.tree o.name = plan.output w.state.tree o.name := by
        rw [Plan.output, Plan.output, stepped.tree.grown.goal]
      rw [goal] at here
      exact (List.nodup_cons.mp apart).1 (output_inj here ▸ among)

end Generate
end ComponentAtlas
