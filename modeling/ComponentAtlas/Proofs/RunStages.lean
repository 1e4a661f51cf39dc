import ComponentAtlas.Proofs.PackageSpelling

namespace ComponentAtlas
open Outline

namespace Generate

def writeFound (plan : Plan) (name : String) (found : Except ResolveError Lineage) (w : Work Library) : Result Path :=
  match toDescriptor plan name found with
  | .error e => (.error e, w)
  | .ok descriptor => writeDescriptor (plan.fileFor name) descriptor w

def generateClassBy (means : Means Library) (plan : Plan) (name : String) (w : Work Library) : Option (Result Path) :=
  (lineageBy means plan name w).map fun (found, w) => writeFound plan name found w

theorem generateClass_eq (plan : Plan) (name : String) (w : Work Library) :
    generateClass plan name w = generateClassBy (.of Library.provider) plan name w := by
  unfold generateClass generateClassBy
  rw [describe_eq, describeBy]
  cases lineageBy (.of Library.provider) plan name w with
  | none => rfl
  | some linked =>
    obtain ⟨found, w⟩ := linked
    simp only [Option.bind_eq_bind, Option.map_some, Option.bind_some, writeFound]
    cases toDescriptor plan name found <;> rfl

def generateAllBy (means : Means Library) (plan : Plan) : List String → Work Library → Option (List Outcome × Work Library)
  | [], w => some ([], w)
  | name :: rest, w =>
    (generateClassBy means plan name { w with diagnostics := [] }).bind fun (result, done) =>
      (generateAllBy means plan rest { done with diagnostics := w.diagnostics }).bind fun (outcomes, w) =>
        some ({ name, result, diagnostics := done.diagnostics } :: outcomes, w)

theorem generateAll_eq (plan : Plan) (names : List String) (w : Work Library) :
    generateAll plan names w = generateAllBy (.of Library.provider) plan names w := by
  induction names generalizing w with
  | nil => rfl
  | cons name rest ih =>
    rw [generateAll, generateAllBy, generateClass_eq]
    simp only [ih]
    rfl

def Plan.selected (plan : Plan) (ignore : IgnoreList) : List String := plan.exports.classes.keys.filter (!ignore.contains ·)

def makeOutput (plan : Plan) (ignore : IgnoreList) (w : Work Library) : Result (Plan × IgnoreList) :=
  match w.state.tree.createDirectories plan.outputDir with
  | .error cause => (.error (.unwritable plan.outputDir cause), w)
  | .ok tree => (.ok (plan, ignore), { w with state := { w.state with tree } })

def prepareBy (means : Means Library) (settings : Settings) (w : Work Library) : Option (Result (Plan × IgnoreList)) :=
  match Package.load w.state.tree settings.packageDir with
  | .error e => some (.error e, w)
  | .ok package =>
    let w := { w with log := w.log ++ [package.loadedEntry] }
    match IgnoreList.load w.state.tree settings.ignorePath with
    | (.error e, _) => some (.error e, w)
    | (.ok ignore, log) =>
      let w := { w with log := w.log ++ log }
      match findEntry w.state.tree package settings.sourceDir with
      | .error e => some (.error e, w)
      | .ok entry =>
        (means.exports entry w).map fun
          | (.error e, w) => (.error (.resolve e), w)
          | (.ok exports, w) =>
            makeOutput
              { package, entry, exports, outputDir := settings.outputPath, extension := settings.extension } ignore
              (w.say .info .generate
                s!"[generate] {package.name} exports {exports.classes.size} classes from {entry.text}")

def reportOn (plan : Plan) (ignore : IgnoreList) (outcomes : List Outcome) (w : Work Library) :
    GenerateReport × Work Library :=
  assemble plan ignore (plan.exports.classes.keys.filter ignore.contains) outcomes w

def finishBy (means : Means Library) (plan : Plan) (ignore : IgnoreList) (w : Work Library) :
    Option (Result GenerateReport) :=
  (generateAllBy means plan (plan.selected ignore) w).map fun (outcomes, w) =>
    (.ok (reportOn plan ignore outcomes w).1, (reportOn plan ignore outcomes w).2)

def runBy (means : Means Library) (settings : Settings) (w : Work Library) : Option (Result GenerateReport) :=
  (prepareBy means settings w).bind fun
    | (.error e, w) => some (.error e, w)
    | (.ok (plan, ignore), w) => finishBy means plan ignore w

theorem carryOut_eq (plan : Plan) (ignore : IgnoreList) (w : Work Library) :
    carryOut plan ignore w =
      match makeOutput plan ignore w with
      | (.error e, w) => some (.error e, w)
      | (.ok (plan, ignore), w) => finishBy (.of Library.provider) plan ignore w := by
  unfold carryOut makeOutput
  dsimp only
  cases w.state.tree.createDirectories plan.outputDir with
  | error cause => rfl
  | ok tree =>
    dsimp only
    rw [generateAll_eq]
    unfold finishBy
    change (generateAllBy _ plan (plan.selected ignore) _).bind _ = (generateAllBy _ plan (plan.selected ignore) _).map _
    rw [Option.map_eq_bind]
    rfl

theorem run_eq (settings : Settings) (w : Work Library) : run settings w = runBy (.of Library.provider) settings w := by
  unfold run runBy prepareBy
  cases Package.load w.state.tree settings.packageDir with
  | error e => rfl
  | ok package =>
    dsimp only
    obtain ⟨_ | ignore, log⟩ := IgnoreList.load w.state.tree settings.ignorePath
    · rfl
    · dsimp only
      cases findEntry w.state.tree package settings.sourceDir with
      | error e => rfl
      | ok entry =>
        simp only [Means.of]
        cases exportedClasses Library.provider entry
          { w with log := w.log ++ [package.loadedEntry] ++ log } with
        | none => rfl
        | some listed =>
          obtain ⟨_ | exports, w⟩ := listed
          · rfl
          · exact carryOut_eq _ ignore _

variable {plan : Plan} {ignore : IgnoreList} {settings : Settings} {w w' start : Work Library}

def prepare (settings : Settings) (w : Work Library) : Option (Result (Plan × IgnoreList)) :=
  prepareBy (.of Library.provider) settings w

theorem exportedClasses_tree (enumerated : exportedClasses Library.provider entry w = some (result, w')) :
    w'.state.tree = w.state.tree := by
  have kept : ∀ (l : Library) (path : Path), l.tree = w.state.tree → (l.load path).state.tree = w.state.tree :=
    fun l path same => (l.load_tree path).trans same
  have holds : w.state.tree = w.state.tree := rfl
  obtain ⟨_, _, -, after⟩ :=
    (Lockstep.of_kept (P := (·.tree = w.state.tree)) kept).exportedClasses rfl (.self holds) enumerated
  exact after.state.2

-- What stands ready when the first class is taken up.
structure Prepared (settings : Settings) (tree : FileTree) (plan : Plan) (start : Work Library) : Prop where
  package : ∃ place, tree.locate (Package.metadataPath settings.packageDir) = .ok place
  outputDir : plan.outputDir = settings.outputPath
  extension : plan.extension = settings.extension
  exports : ∃ before after, exportedClasses Library.provider plan.entry before = some (.ok plan.exports, after)
  output : tree.createDirectories plan.outputDir = .ok start.state.tree

theorem makeOutput_error (made : makeOutput plan ignore w = (.error e, w')) : ∃ cause, e = .unwritable plan.outputDir cause := by
  unfold makeOutput at made
  split at made
  · cases made
    exact ⟨_, rfl⟩
  · cases made

theorem makeOutput_ok (made : makeOutput plan ignore w = (.ok (plan', ignore'), w')) :
    plan = plan' ∧ ignore = ignore' ∧ w.state.tree.createDirectories plan.outputDir = .ok w'.state.tree := by
  unfold makeOutput at made
  split at made
  · cases made
  · rename_i tree created
    cases made
    exact ⟨rfl, rfl, created⟩

theorem prepare_cases (prepared : prepare settings w = some (result, start)) :
    (∃ e, result = .error e ∧ ((∀ path cause, e ≠ .unwritable path cause) → start.state.tree = w.state.tree)) ∨
      ∃ plan ignore, result = .ok (plan, ignore) ∧ Prepared settings w.state.tree plan start := by
  unfold prepare prepareBy at prepared
  split at prepared
  · cases prepared
    exact .inl ⟨_, rfl, fun _ => rfl⟩
  · rename_i loaded
    dsimp only at prepared
    split at prepared
    · cases prepared
      exact .inl ⟨_, rfl, fun _ => rfl⟩
    · split at prepared
      · cases prepared
        exact .inl ⟨_, rfl, fun _ => rfl⟩
      · obtain ⟨⟨listed, after⟩, enumerated, equal⟩ := Option.map_eq_some_iff.mp prepared
        have tree : after.state.tree = _ := exportedClasses_tree enumerated
        dsimp only at tree
        cases listed with
        | error e =>
          cases equal
          exact .inl ⟨_, rfl, fun _ => tree⟩
        | ok exports =>
          dsimp only at equal
          cases result with
          | error e =>
            obtain ⟨cause, rfl⟩ := makeOutput_error equal
            exact .inl ⟨_, rfl, fun other => absurd rfl (other _ _)⟩
          | ok made =>
            obtain ⟨plan, ignore⟩ := made
            obtain ⟨rfl, rfl, created⟩ := makeOutput_ok equal
            have located := Package.load_located loaded
            rw [← tree] at located ⊢
            exact .inr ⟨_, _, rfl, located, rfl, rfl, ⟨_, _, enumerated⟩, created⟩

theorem prepare_ok (prepared : prepare settings w = some (.ok (plan, ignore), start)) :
    Prepared settings w.state.tree plan start := by
  rcases prepare_cases prepared with ⟨_, equal, -⟩ | ⟨_, _, equal, ready⟩
  · cases equal
  · cases equal
    exact ready

-- How a run ends: early with a failure, or with a report on every class.
theorem run_cases (ran : run settings w = some (result, w')) :
    (∃ e, result = .error e ∧ ((∀ path cause, e ≠ .unwritable path cause) → w'.state.tree = w.state.tree)) ∨
      ∃ plan ignore start outcomes finished, prepare settings w = some (.ok (plan, ignore), start) ∧
        generateAll plan (plan.selected ignore) start = some (outcomes, finished) ∧
        result = .ok (reportOn plan ignore outcomes finished).1 ∧ w'.state = finished.state := by
  rw [run_eq] at ran
  obtain ⟨⟨ready, start⟩, prepared, ran⟩ := Option.bind_eq_some_iff.mp ran
  have prepared : prepare settings w = some (ready, start) := prepared
  rcases prepare_cases prepared with ⟨e, rfl, kept⟩ | ⟨plan, ignore, rfl, -⟩
  · cases ran
    exact .inl ⟨e, rfl, kept⟩
  · obtain ⟨⟨outcomes, finished⟩, generated, equal⟩ := Option.map_eq_some_iff.mp ran
    rw [← generateAll_eq] at generated
    cases equal
    exact .inr ⟨plan, ignore, start, outcomes, finished, prepared, generated, rfl, assemble_state ..⟩

theorem run_ok (ran : run settings w = some (.ok report, w')) :
    ∃ plan ignore start outcomes finished, prepare settings w = some (.ok (plan, ignore), start) ∧
      generateAll plan (plan.selected ignore) start = some (outcomes, finished) ∧
      report = (reportOn plan ignore outcomes finished).1 ∧ w'.state = finished.state := by
  rcases run_cases ran with ⟨_, equal, -⟩ | ⟨plan, ignore, start, outcomes, finished, prepared, generated, equal, state⟩
  · cases equal
  · exact ⟨plan, ignore, start, outcomes, finished, prepared, generated, Except.ok.inj equal, state⟩

theorem reportOn_written (plan : Plan) (ignore : IgnoreList) (outcomes : List Outcome) (w : Work Library) :
    (reportOn plan ignore outcomes w).1.written = outcomes.filterMap (·.written?) :=
  (assemble_adds plan ignore _ outcomes w).2.1

theorem selected_nodup (ready : Prepared settings tree plan start) (ignore : IgnoreList) :
    (plan.selected ignore).Nodup := by
  obtain ⟨_, _, enumerated⟩ := ready.exports
  have distinct : (plan.exports.classes.keys ++ plan.exports.failed.map (·.1)).Nodup := exportedClasses_distinct enumerated
  exact (List.nodup_append.mp distinct).1.filter _

def Describes (plan : Plan) (name : String) (w : Work Library) (lineage : Lineage) (descriptor : Descriptor) : Prop :=
  (∃ w', lineageBy (.of Library.provider) plan name w = some (.ok lineage, w')) ∧
    Descriptor.ofLineage? plan.package.name name lineage plan.exports = some descriptor

theorem describes_of_ok (described : describe plan name w = some (.ok descriptor, w')) :
    ∃ lineage, Describes plan name w lineage descriptor := by
  rw [describe_eq] at described
  obtain ⟨⟨result, after⟩, linked, equal⟩ := Option.map_eq_some_iff.mp described
  cases result with
  | error e => cases equal
  | ok lineage =>
    refine ⟨lineage, ⟨after, linked⟩, ?_⟩
    have described : toDescriptor plan name (.ok lineage) = .ok descriptor := congrArg Prod.fst equal
    unfold toDescriptor at described
    dsimp only at described
    split at described
    · cases described
    · rename_i equal
      cases described
      exact equal

theorem Describes.element (describes : Describes plan name w lineage descriptor) : descriptor.element = name := by
  have described := describes.2
  unfold Descriptor.ofLineage? at described
  split at described
  · cases described
    rfl
  · cases described

-- An attempt at a class leaves all files alone, or writes the descriptor of the class.
theorem generateClass_cases (attempted : generateClass plan name w = some (result, w')) :
    (∃ e, result = .error e ∧ w'.state.tree = w.state.tree) ∨
      ∃ lineage descriptor, Describes plan name w lineage descriptor ∧ result = .ok (plan.fileFor name) ∧
        w.state.tree.write (plan.fileFor name) (.text descriptor.toJson.pretty) = .ok w'.state.tree := by
  cases result with
  | error e => exact .inl ⟨e, rfl, (generateClass_error attempted).tree⟩
  | ok path =>
    unfold generateClass at attempted
    obtain ⟨⟨result, between⟩, described, attempted⟩ := Option.bind_eq_some_iff.mp attempted
    cases result with
    | error e => cases attempted
    | ok descriptor =>
      obtain ⟨lineage, describes⟩ := describes_of_ok described
      have tree : between.state.tree = w.state.tree := (describe_interchangeable described).tree
      have written : writeDescriptor (plan.fileFor name) descriptor between = (.ok path, w') := Option.some.inj attempted
      unfold writeDescriptor at written
      rw [tree] at written
      split at written
      · cases written
      · rename_i wrote
        cases written
        exact .inr ⟨lineage, descriptor, describes, rfl, wrote⟩

theorem generateAll_cons_iff : generateAll plan (name :: rest) w = some (outcomes, w') ↔
    ∃ result done later, generateClass plan name { w with diagnostics := [] } = some (result, done) ∧
      generateAll plan rest { done with diagnostics := w.diagnostics } = some (later, w') ∧
      outcomes = { name, result, diagnostics := done.diagnostics } :: later := by
  rw [generateAll]
  constructor
  · intro generated
    obtain ⟨⟨result, done⟩, attempted, generated⟩ := Option.bind_eq_some_iff.mp generated
    obtain ⟨⟨later, after⟩, all, equal⟩ := Option.bind_eq_some_iff.mp generated
    cases equal
    exact ⟨result, done, later, attempted, all, rfl⟩
  · rintro ⟨result, done, later, attempted, all, rfl⟩
    rw [attempted]
    simp only [Option.bind_eq_bind, Option.bind_some, all]
    rfl

theorem generateAll_append_iff : generateAll plan (front ++ back) w = some (outcomes, w') ↔
    ∃ earlier between later, generateAll plan front w = some (earlier, between) ∧
      generateAll plan back between = some (later, w') ∧ outcomes = earlier ++ later := by
  induction front generalizing w outcomes with
  | nil => simp [generateAll]
  | cons name front ih =>
    simp only [List.cons_append, generateAll_cons_iff, ih]
    constructor
    · rintro ⟨result, done, _, attempted, ⟨earlier, between, later, all, all', rfl⟩, rfl⟩
      exact ⟨_, between, later, ⟨result, done, earlier, attempted, all, rfl⟩, all', rfl⟩
    · rintro ⟨_, between, later, ⟨result, done, earlier, attempted, all, rfl⟩, all', rfl⟩
      exact ⟨result, done, _, attempted, ⟨earlier, between, later, all, all', rfl⟩, rfl⟩

-- The work as the turn of a class comes, with the classes before it done.
def Turn (plan : Plan) (names : List String) (start : Work Library) (name : String) (reached : Work Library) : Prop :=
  ∃ front back earlier before, names = front ++ name :: back ∧ generateAll plan front start = some (earlier, before) ∧
    reached = { before with diagnostics := [] }

theorem Turn.first (plan : Plan) (name : String) (rest : List String) (start : Work Library) :
    Turn plan (name :: rest) start name { start with diagnostics := [] } :=
  ⟨[], rest, [], start, rfl, rfl, rfl⟩

theorem Turn.later (attempted : generateClass plan name { start with diagnostics := [] } = some (result, done))
    (turn : Turn plan names { done with diagnostics := start.diagnostics } other reached) :
    Turn plan (name :: names) start other reached := by
  obtain ⟨front, back, earlier, before, rfl, generated, rfl⟩ := turn
  exact ⟨name :: front, back, _, before, rfl, generateAll_cons_iff.mpr ⟨_, _, _, attempted, generated, rfl⟩, rfl⟩

theorem Turn.cases (turn : Turn plan (name :: names) start other reached) :
    other = name ∧ reached = { start with diagnostics := [] } ∨
      ∃ result done, generateClass plan name { start with diagnostics := [] } = some (result, done) ∧
        Turn plan names { done with diagnostics := start.diagnostics } other reached := by
  obtain ⟨front, back, earlier, before, equal, generated, rfl⟩ := turn
  cases front with
  | nil =>
    cases equal
    cases generated
    exact .inl ⟨rfl, rfl⟩
  | cons first front =>
    cases equal
    obtain ⟨result, done, later, attempted, all, rfl⟩ := generateAll_cons_iff.mp generated
    exact .inr ⟨result, done, attempted, front, back, later, before, rfl, all, rfl⟩

theorem generateAll_turn (generated : generateAll plan names w = some (outcomes, w')) (member : o ∈ outcomes) :
    ∃ reached left, Turn plan names w o.name reached ∧ generateClass plan o.name reached = some (o.result, left) ∧
      o.diagnostics = left.diagnostics := by
  induction names generalizing w outcomes with
  | nil =>
    cases generated
    cases member
  | cons name rest ih =>
    obtain ⟨result, done, later, attempted, all, rfl⟩ := generateAll_cons_iff.mp generated
    rcases List.mem_cons.mp member with rfl | further
    · exact ⟨_, done, .first plan name rest w, attempted, rfl⟩
    · obtain ⟨reached, left, turn, attempted', diagnostics⟩ := ih all further
      exact ⟨reached, left, turn.later attempted, attempted', diagnostics⟩

theorem written?_eq_some {o : Outcome} : o.written? = some x ↔ o.name = x.1 ∧ o.result = .ok x.2 := by
  obtain ⟨name, path⟩ := x
  unfold Outcome.written?
  cases o.result with
  | ok path' => simp
  | error e => simp

theorem written_described (generated : generateAll plan names w = some (outcomes, w'))
    (written : x ∈ outcomes.filterMap (·.written?)) :
    ∃ reached lineage descriptor, Turn plan names w x.1 reached ∧ Describes plan x.1 reached lineage descriptor := by
  obtain ⟨o, member, ok⟩ := List.mem_filterMap.mp written
  obtain ⟨name, result⟩ := written?_eq_some.mp ok
  obtain ⟨reached, left, turn, attempted, -⟩ := generateAll_turn generated member
  rw [name] at turn attempted
  rcases generateClass_cases attempted with ⟨e, failed, -⟩ | ⟨lineage, descriptor, describes, -⟩
  · rw [failed] at result
    cases result
  · exact ⟨reached, lineage, descriptor, turn, describes⟩

end Generate
end ComponentAtlas
