import ComponentAtlas.Proofs.ExportOffers
import ComponentAtlas.Proofs.GenerateSteps

namespace ComponentAtlas
open Outline

namespace ExportList

variable {l : ExportList}

theorem insert_distinct (distinct : l.taken.Nodup) (name : String) (c : ExportedClass) : (l.insert name c).taken.Nodup := by
  rw [← offer_ok]
  exact taken_nodup [(name, .ok c)] distinct

theorem fail_distinct (distinct : l.taken.Nodup) (free : l.isTaken name = false) (e : ResolveError) :
    (l.fail name e).taken.Nodup := by
  have offered : l.offer (name, .error e) = l.fail name e := by rw [offer, if_neg (ne_true_of_eq_false free)]
  rw [← offered]
  exact taken_nodup [(name, .error e)] distinct

-- What taking a name and failing one keep, an enumeration keeps.
structure Kept (P : ExportList → Prop) : Prop where
  insert {l : ExportList} : P l → ∀ name c, P (l.insert name c)
  fail {l : ExportList} : P l → l.isTaken name = false → ∀ e, P (l.fail name e)

theorem distinct_kept : Kept (·.taken.Nodup) := ⟨insert_distinct, fail_distinct⟩

end ExportList

namespace Enumeration

variable {σ : Type} {p : Provider σ} {P : ExportList → Prop} (kept : ExportList.Kept P)
include kept

theorem addClasses_kept (path : Path) (names : List String) (holds : P l) : P (addClasses path names l) := by
  induction names generalizing l with
  | nil => exact holds
  | cons name rest ih => exact ih (kept.insert holds name _)

theorem addReexport_kept {s s' : Enumeration σ} (holds : P s.found) (added : addReexport p path s name = some s') :
    P s'.found := by
  unfold addReexport at added
  split at added
  · cases added
    exact holds
  · rename_i free
    obtain ⟨⟨result, work⟩, -, added⟩ := Option.bind_eq_some_iff.mp added
    cases result with
    | ok symbol =>
      cases added
      exact kept.insert holds name _
    | error e =>
      dsimp only at added
      split at added
      · cases added
        exact holds
      · cases added
        exact kept.fail holds (by simpa using free) e

theorem addReexports_kept {s s' : Enumeration σ} {names : List String} (holds : P s.found)
    (added : names.foldlM (addReexport p path) s = some s') : P s'.found := by
  induction names generalizing s with
  | nil =>
    cases added
    exact holds
  | cons name rest ih =>
    obtain ⟨middle, one, added⟩ := Option.bind_eq_some_iff.mp added
    exact ih (addReexport_kept kept holds one) added

theorem run_kept (task : Task) {s s' : Enumeration σ} (holds : P s.found) (ran : run p task s = some s') : P s'.found := by
  have all := addFile.mutual_partial_correctness p (fun _ _ s s' => P s.found → P s'.found)
    (fun _ _ s s' => P s.found → P s'.found) (fun _ s s' => P s.found → P s'.found) (by
      intro addTargets ih path index s s' added holds
      split at added
      · cases added
        exact holds
      · obtain ⟨middle, own, added⟩ := Option.bind_eq_some_iff.mp added
        exact ih _ _ _ _ added (addReexports_kept kept (addClasses_kept kept path _ holds) own)) (by
      intro addTargets visit ihTargets ihVisit path targets s s' added holds
      split at added
      · cases added
        exact holds
      · obtain ⟨middle, one, added⟩ := Option.bind_eq_some_iff.mp added
        exact ihTargets _ _ _ _ added (ihVisit _ _ _ one holds)
      · exact ihTargets _ _ _ _ added holds) (by
      intro addFile ih path s s' added holds
      split at added
      · cases added
        exact holds
      · exact ih _ _ _ _ added holds)
  cases task with
  | file path index => exact all.1 _ _ _ _ ran holds
  | targets path targets => exact all.2.1 _ _ _ _ ran holds
  | visit path => exact all.2.2 _ _ _ ran holds

end Enumeration

theorem exportedClasses_kept {σ : Type} {p : Provider σ} {w w' : Work σ} {P : ExportList → Prop}
    (kept : ExportList.Kept P) (nothing : P .empty) (enumerated : exportedClasses p entry w = some (.ok exports, w')) :
    P exports := by
  unfold exportedClasses at enumerated
  split at enumerated
  · cases enumerated
  · obtain ⟨s, added, equal⟩ := Option.bind_eq_some_iff.mp enumerated
    cases equal
    exact Enumeration.run_kept kept (.file _ _) nothing added

theorem exportedClasses_distinct {σ : Type} {p : Provider σ} {w w' : Work σ}
    (enumerated : exportedClasses p entry w = some (.ok exports, w')) : exports.taken.Nodup :=
  exportedClasses_kept (P := (·.taken.Nodup)) ExportList.distinct_kept List.nodup_nil enumerated

namespace Generate

variable {plan : Plan} {w w' : Work Library}

def Outcome.written? (o : Outcome) : Option (String × Path) :=
  match o.result with
  | .ok path => some (o.name, path)
  | .error _ => none

def Outcome.failed? (o : Outcome) : Option (String × GenerateError) :=
  match o.result with
  | .ok _ => none
  | .error e => some (o.name, e)

theorem generateAll_names (generated : generateAll plan names w = some (outcomes, w')) :
    outcomes.map (·.name) = names := by
  induction names generalizing w outcomes with
  | nil =>
    cases generated
    rfl
  | cons name rest ih =>
    obtain ⟨⟨result, done⟩, -, generated⟩ := Option.bind_eq_some_iff.mp generated
    obtain ⟨⟨later, after⟩, all, equal⟩ := Option.bind_eq_some_iff.mp generated
    cases equal
    rw [List.map_cons, ih all]

theorem generateAll_split (generated : generateAll plan (front ++ name :: back) w = some (outcomes, w')) :
    ∃ earlier before result after, generateAll plan front w = some (earlier, before) ∧
      generateClass plan name { before with diagnostics := [] } = some (result, after) ∧
      ∃ later, outcomes = earlier ++ { name, result, diagnostics := after.diagnostics } :: later := by
  induction front generalizing w outcomes with
  | nil =>
    obtain ⟨⟨result, done⟩, attempted, generated⟩ := Option.bind_eq_some_iff.mp generated
    obtain ⟨⟨later, after⟩, -, equal⟩ := Option.bind_eq_some_iff.mp generated
    cases equal
    exact ⟨[], w, result, done, rfl, attempted, later, rfl⟩
  | cons first front ih =>
    obtain ⟨⟨result, done⟩, attempted, generated⟩ := Option.bind_eq_some_iff.mp generated
    obtain ⟨⟨later, after⟩, all, equal⟩ := Option.bind_eq_some_iff.mp generated
    cases equal
    obtain ⟨earlier, before, result', after', before_eq, attempted', rest, outcomes_eq⟩ := ih all
    refine ⟨_ :: earlier, before, result', after', ?_, attempted', rest, by rw [outcomes_eq]; rfl⟩
    rw [generateAll, attempted]
    simp only [Option.bind_eq_bind, Option.bind_some, before_eq]
    rfl

-- What is added to a report, behind what it has.
structure Adds (r : GenerateReport) (written : List (String × Path)) (ignored : List String)
    (failed : List (String × GenerateError)) (r' : GenerateReport) : Prop where
  entry : r'.entry = r.entry
  written : r'.written = r.written ++ written
  ignored : r'.ignored = r.ignored ++ ignored
  failed : r'.failed = r.failed ++ failed

theorem Adds.refl (r : GenerateReport) : Adds r [] [] [] r := by
  constructor <;> simp

theorem Adds.trans (one : Adds r done left lost between) (two : Adds between done' left' lost' r') :
    Adds r (done ++ done') (left ++ left') (lost ++ lost') r' where
  entry := two.entry.trans one.entry
  written := by rw [two.written, one.written, List.append_assoc]
  ignored := by rw [two.ignored, one.ignored, List.append_assoc]
  failed := by rw [two.failed, one.failed, List.append_assoc]

-- What a failed re-export adds: its name, if it is to be ignored, else its failure.
def excused (ignore : IgnoreList) (failures : List (String × ResolveError)) : List String :=
  (failures.map (·.1)).filter ignore.contains

def blamed (ignore : IgnoreList) (failures : List (String × ResolveError)) : List (String × GenerateError) :=
  (failures.filter (!ignore.contains ·.1)).map fun failure => (failure.1, .resolve failure.2)

theorem skipFailedExport_adds (ignore : IgnoreList) (r : GenerateReport) (w : Work Library)
    (failure : String × ResolveError) :
    Adds r [] (excused ignore [failure]) (blamed ignore [failure])
      (skipFailedExport ignore r w failure.1 failure.2).1 := by
  unfold skipFailedExport
  split
  · rename_i listed
    constructor <;> simp [excused, blamed, listed]
  · rename_i unlisted
    constructor <;> simp [excused, blamed, unlisted]

theorem skipFailedExports_adds (ignore : IgnoreList) (failures : List (String × ResolveError))
    (x : GenerateReport × Work Library) :
    Adds x.1 [] (excused ignore failures) (blamed ignore failures)
      (failures.foldl (fun (r, w) (name, e) => skipFailedExport ignore r w name e) x).1 := by
  induction failures generalizing x with
  | nil => exact .refl x.1
  | cons failure rest ih =>
    have both := (skipFailedExport_adds ignore x.1 x.2 failure).trans (ih _)
    have excuses : excused ignore [failure] ++ excused ignore rest = excused ignore (failure :: rest) := by
      rw [excused, excused, ← List.filter_append]
      rfl
    have blames : blamed ignore [failure] ++ blamed ignore rest = blamed ignore (failure :: rest) := by
      rw [blamed, blamed, ← List.map_append, ← List.filter_append]
      rfl
    rw [excuses, blames] at both
    exact both

theorem addOutcome_adds (r : GenerateReport) (w : Work Library) (o : Outcome) :
    Adds r o.written?.toList [] o.failed?.toList (addOutcome r w o).1 := by
  unfold addOutcome Outcome.written? Outcome.failed?
  cases o.result with
  | ok path => constructor <;> simp
  | error e => constructor <;> simp

theorem addOutcomes_adds (outcomes : List Outcome) (x : GenerateReport × Work Library) :
    Adds x.1 (outcomes.filterMap (·.written?)) [] (outcomes.filterMap (·.failed?))
      (outcomes.foldl (fun (r, w) o => addOutcome r w o) x).1 := by
  induction outcomes generalizing x with
  | nil => exact .refl x.1
  | cons o rest ih =>
    rw [filterMap_cons_append, filterMap_cons_append]
    exact (addOutcome_adds x.1 x.2 o).trans (ih _)

theorem assemble_adds (plan : Plan) (ignore : IgnoreList) (ignored : List String) (outcomes : List Outcome)
    (w : Work Library) :
    let report := (assemble plan ignore ignored outcomes w).1
    report.entry = plan.entry ∧ report.written = outcomes.filterMap (·.written?) ∧
      report.ignored = ignored ++ excused ignore plan.exports.failed ∧
      report.failed = blamed ignore plan.exports.failed ++ outcomes.filterMap (·.failed?) := by
  let start : GenerateReport :=
    { package := plan.package.name, entry := plan.entry, written := [], ignored, failed := [],
      diagnostics := w.diagnostics }
  have both := (skipFailedExports_adds ignore plan.exports.failed (start, w)).trans (addOutcomes_adds outcomes _)
  have ignored' := both.ignored
  rw [List.append_nil] at ignored'
  exact ⟨both.entry, both.written, ignored', both.failed⟩

theorem run_parts (ran : run settings w = some (.ok report, w')) : ∃ package ignore entry exports before after tree,
    Package.load w.state.tree settings.packageDir = .ok package ∧
    (IgnoreList.load w.state.tree settings.ignorePath).1 = .ok ignore ∧
    findEntry w.state.tree package settings.sourceDir = .ok entry ∧
    before.state = w.state ∧ exportedClasses Library.provider entry before = some (.ok exports, after) ∧
    after.state.tree.createDirectories settings.outputPath = .ok tree ∧
    let plan : Plan :=
      { package, entry, exports, outputDir := settings.outputPath, extension := settings.extension }
    ∃ start outcomes finished, start.state = { after.state with tree } ∧
      generateAll plan (exports.classes.keys.filter (!ignore.contains ·)) start = some (outcomes, finished) ∧
      report = (assemble plan ignore (exports.classes.keys.filter ignore.contains) outcomes finished).1 := by
  unfold run at ran
  split at ran
  · cases ran
  · rename_i package loaded
    dsimp only at ran
    split at ran
    · cases ran
    · rename_i ignore log listed
      split at ran
      · cases ran
      · rename_i entry found
        obtain ⟨⟨result, after⟩, enumerated, ran⟩ := Option.bind_eq_some_iff.mp ran
        cases result with
        | error e => cases ran
        | ok exports =>
          dsimp only at ran
          unfold carryOut at ran
          dsimp only at ran
          split at ran
          · cases ran
          · rename_i tree made
            obtain ⟨⟨outcomes, finished⟩, generated, ran⟩ := Option.bind_eq_some_iff.mp ran
            cases ran
            exact ⟨package, ignore, entry, exports, { w with log := w.log ++ [package.loadedEntry] ++ log }, after, tree,
              loaded, by rw [listed], found, rfl, enumerated, made, _, outcomes, finished, rfl, generated, rfl⟩

theorem outcomes_perm (outcomes : List Outcome) :
    (outcomes.map (·.name)).Perm
      ((outcomes.filterMap (·.written?)).map (·.1) ++ (outcomes.filterMap (·.failed?)).map (·.1)) := by
  induction outcomes with
  | nil => exact .nil
  | cons o rest ih =>
    obtain ⟨name, result, diagnostics⟩ := o
    rw [filterMap_cons_append, filterMap_cons_append]
    cases result with
    | ok path => exact ih.cons name
    | error e => exact (ih.cons name).trans List.perm_middle.symm

theorem written_sublist (outcomes : List Outcome) :
    ((outcomes.filterMap (·.written?)).map (·.1)).Sublist (outcomes.map (·.name)) := by
  induction outcomes with
  | nil => exact .slnil
  | cons o rest ih =>
    obtain ⟨name, result, diagnostics⟩ := o
    rw [filterMap_cons_append]
    cases result with
    | ok path => exact ih.cons_cons name
    | error e => exact ih.cons name

theorem blamed_names (ignore : IgnoreList) (failures : List (String × ResolveError)) :
    (blamed ignore failures).map (·.1) = (failures.map (·.1)).filter (!ignore.contains ·) := by
  rw [blamed, List.map_map, List.filter_map]
  rfl

theorem failures_perm (ignore : IgnoreList) (failures : List (String × ResolveError)) :
    (failures.map (·.1)).Perm (excused ignore failures ++ (blamed ignore failures).map (·.1)) := by
  rw [blamed_names]
  exact (List.filter_append_perm _ _).symm

-- Among outcomes for distinct names, a name has the outcome that it has.
theorem written_iff (distinct : ((earlier ++ o :: later).map Outcome.name).Nodup) :
    (o.name, path) ∈ (earlier ++ o :: later).filterMap (·.written?) ↔ o.result = .ok path := by
  rw [List.mem_filterMap]
  constructor
  · rintro ⟨o', member, written⟩
    have same : o'.name = o.name := by
      unfold Outcome.written? at written
      split at written
      · exact congrArg Prod.fst (Option.some.inj written)
      · cases written
    obtain rfl := List.inj_on_of_nodup_map distinct member (by simp) same
    unfold Outcome.written? at written
    split at written
    · rename_i result
      rw [result, (Prod.mk.inj (Option.some.inj written)).2]
    · cases written
  · intro result
    exact ⟨o, by simp, by rw [Outcome.written?, result]⟩

-- With every name accounted for once, nothing has failed exactly when all that is not ignored was written.
theorem isSuccess_iff {report : GenerateReport} {names : List String} {ignore : IgnoreList}
    (distinct : (report.written.map (·.1) ++ report.ignored ++ report.failed.map (·.1)).Nodup)
    (perm : (report.written.map (·.1) ++ report.ignored ++ report.failed.map (·.1)).Perm names)
    (ignored : ∀ name, name ∈ report.ignored ↔ name ∈ names ∧ ignore.contains name = true) :
    report.isSuccess = true ↔ ∀ name ∈ names, ignore.contains name = false → name ∈ report.written.map (·.1) := by
  rw [GenerateReport.isSuccess, List.isEmpty_iff]
  constructor
  · intro none name member unlisted
    have accounted := perm.mem_iff.mpr member
    rw [none, List.map_nil, List.append_nil] at accounted
    rcases List.mem_append.mp accounted with written | skipped
    · exact written
    · rw [((ignored name).mp skipped).2] at unlisted
      cases unlisted
  · intro all
    refine List.eq_nil_iff_forall_not_mem.mpr fun failure member => ?_
    have failed : failure.1 ∈ report.failed.map (·.1) := List.mem_map_of_mem member
    have apart := (List.nodup_append.mp distinct).2.2
    have listed : ignore.contains failure.1 = false := by
      rw [← Bool.not_eq_true]
      intro contained
      have skipped := (ignored failure.1).mpr ⟨perm.mem_iff.mp (List.mem_append_right _ failed), contained⟩
      exact apart _ (List.mem_append_right _ skipped) _ failed rfl
    have written := all failure.1 (perm.mem_iff.mp (List.mem_append_right _ failed)) listed
    exact apart _ (List.mem_append_left _ written) _ failed rfl

def Writes (plan : Plan) (name : String) (w : Work Library) : Prop :=
  ∃ path w', generateClass plan name { w with diagnostics := [] } = some (.ok path, w')

theorem writes_iff (failed : generateClass plan name { w with diagnostics := [] } = some (.error e, w'))
    (other : String) : Writes plan other w' ↔ Writes plan other w := by
  have alike := generateClass_error failed
  constructor
  · rintro ⟨path, after, attempted⟩
    obtain ⟨after', attempted'⟩ := generateClass_interchangeable alike attempted
    exact ⟨path, after', attempted'⟩
  · rintro ⟨path, after, attempted⟩
    obtain ⟨after', attempted'⟩ := generateClass_interchangeable alike.symm attempted
    exact ⟨path, after', attempted'⟩

end Generate

open Generate

-- The report of a run accounts for every name that the entry exports, or fails to export, exactly once.
theorem run_accounts {settings : Settings} {w w' : Work Library} {report : GenerateReport}
    (ran : Generate.run settings w = some (.ok report, w')) :
    ∃ package ignore exports before after,
      Package.load w.state.tree settings.packageDir = .ok package ∧
      (IgnoreList.load w.state.tree settings.ignorePath).1 = .ok ignore ∧
      findEntry w.state.tree package settings.sourceDir = .ok report.entry ∧
      before.state = w.state ∧ exportedClasses Library.provider report.entry before = some (.ok exports, after) ∧
      let names := exports.classes.keys ++ exports.failed.map (·.1)
      let accounted := report.written.map (·.1) ++ report.ignored ++ report.failed.map (·.1)
      accounted.Nodup ∧ accounted.Perm names ∧
      (∀ name, name ∈ report.ignored ↔ name ∈ names ∧ ignore.contains name = true) ∧
      (report.written.map (·.1)).Sublist exports.classes.keys ∧
      (∀ name e, (name, e) ∈ exports.failed → ignore.contains name = false → (name, .resolve e) ∈ report.failed) ∧
      (report.isSuccess = true ↔
        ∀ name ∈ names, ignore.contains name = false → name ∈ report.written.map (·.1)) ∧
      -- Every class is attempted in its turn; one that fails stands in the way of no other.
      let plan : Plan :=
        { package, entry := report.entry, exports, outputDir := settings.outputPath, extension := settings.extension }
      ∃ start, ∀ front name back, exports.classes.keys.filter (!ignore.contains ·) = front ++ name :: back →
        ∃ outcomes reached result left, generateAll plan front start = some (outcomes, reached) ∧
          generateClass plan name { reached with diagnostics := [] } = some (result, left) ∧
          (∀ path, (name, path) ∈ report.written ↔ result = .ok path) ∧
          ∀ e, result = .error e → left.state.tree = reached.state.tree ∧
            ∀ other, Writes plan other left ↔ Writes plan other reached := by
  obtain ⟨package, ignore, entry, exports, before, after, tree, loaded, listed, found, state, enumerated, -, start,
    outcomes, finished, -, generated, assembled⟩ := run_parts ran
  obtain ⟨entry_eq, written, ignored, failed⟩ := assemble_adds
    { package, entry, exports, outputDir := settings.outputPath, extension := settings.extension } ignore
    (exports.classes.keys.filter ignore.contains) outcomes finished
  rw [← assembled] at entry_eq written ignored failed
  cases entry_eq
  have distinct : (exports.classes.keys ++ exports.failed.map (·.1)).Nodup := exportedClasses_distinct enumerated
  have selected := generateAll_names generated
  have perm : (report.written.map (·.1) ++ report.ignored ++ report.failed.map (·.1)).Perm
      (exports.classes.keys ++ exports.failed.map (·.1)) := by
    -- Each name is counted alike on both sides.
    refine List.perm_iff_count.mpr fun name => ?_
    have one := (outcomes_perm outcomes).count_eq name
    have two := (failures_perm ignore exports.failed).count_eq name
    have three := (List.filter_append_perm ignore.contains exports.classes.keys).count_eq name
    rw [selected] at one
    rw [written, ignored, failed]
    simp only [List.count_append, List.map_append] at one two three ⊢
    omega
  have accounted := perm.nodup_iff.mpr distinct
  have ignored_iff : ∀ name, name ∈ report.ignored ↔
      name ∈ exports.classes.keys ++ exports.failed.map (·.1) ∧ ignore.contains name = true := by
    intro name
    rw [ignored, excused, ← List.filter_append, List.mem_filter]
  refine ⟨package, ignore, exports, before, after, loaded, listed, found, state, enumerated, accounted, perm,
    ignored_iff, ?_, fun name e member unlisted => ?_, isSuccess_iff accounted perm ignored_iff, start,
    fun front name back split => ?_⟩
  · have inside := written_sublist outcomes
    rw [selected] at inside
    rw [written]
    exact inside.trans List.filter_sublist
  · rw [failed]
    refine List.mem_append_left _ (List.mem_map.mpr ⟨(name, e), List.mem_filter.mpr ⟨member, ?_⟩, rfl⟩)
    simp [unlisted]
  · rw [split] at generated
    obtain ⟨earlier, reached, result, left, generated', attempted, later, rfl⟩ := generateAll_split generated
    have each : ((earlier ++ { name, result, diagnostics := left.diagnostics } :: later).map Outcome.name).Nodup := by
      rw [selected]
      exact (List.nodup_append.mp distinct).1.filter _
    refine ⟨earlier, reached, result, left, generated', attempted, fun path => ?_, ?_⟩
    · rw [written]
      exact written_iff each
    · rintro e rfl
      exact ⟨(generateClass_error attempted).tree, writes_iff attempted⟩

def kitModule : SourceFile :=
  .ofForms "./index.ts"
    [ .declaration .named (.classDecl { (default : ClassDeclaration) with name := "Widget" }),
      .declaration .named (.classDecl { (default : ClassDeclaration) with name := "Hidden" }),
      .exportNamed [{ name := "Gone", otherName := none, range := default }] (some "./gone") ]

def kit : Library :=
  { tree :=
      { workingDirectory := ["kit"]
        entries :=
          [ (["kit"], .directory), (["kit", "components"], .directory), (["kit", "index.ts"], .file (.text "")),
            (["kit", "package.json"], .file (.text "\x7b\"name\":\"kit\"\x7d")),
            (["kit", ".componentsignore"], .file (.text "[\"Hidden\"]")) ] }
    known := [(kitModule.path.components, kitModule)] }

def kitIndex : Index := Index.ofStatements kitModule
def kitPackage : Package := { root := ⟨"."⟩, name := "kit", version := none, types := ⟨"index.d.ts"⟩ }

theorem kit_opens {w : Work Library} (state : w.state = kit) :
    w.openFile Library.provider ⟨"./index.ts"⟩ = (.ok (kitModule, kitIndex), w) := by
  have probed : w.state.tree.findSource ⟨"./index.ts"⟩ = .ok ⟨"./index.ts"⟩ := by
    rw [state]
    decide +kernel
  refine Work.openFile_known probed ?_ ?_
  · rw [state]
    decide +kernel
  · rw [Index.ofFile]
    have named : kitModule.statements.find? Index.isAnonymous = none := by decide +kernel
    rw [named]
    rfl

theorem kit_missing {w : Work Library} (state : w.state = kit) :
    w.openFile Library.provider ⟨"gone"⟩ = (.error (.parse (.noSource ⟨"gone"⟩ 7)), w) := by
  refine Work.openFile_missing ?_
  rw [state]
  decide +kernel

theorem kit_gone {w : Work Library} (state : w.state = kit) :
    ∃ w', resolve Library.provider .classes (.of "Gone" ⟨"./index.ts"⟩) w =
      some (.error (.parse (.noSource ⟨"gone"⟩ 7)), w') ∧ w'.state = kit := by
  have absent : kitIndex.local? .classes "Gone" = none := by decide +kernel
  have binds : (kitIndex.imports.get? "Gone").or (kitIndex.reexports.get? "Gone") =
    some { name := "Gone", target := .file ⟨"gone"⟩ } := by decide +kernel
  rw [resolve]
  dsimp only [Reference.of]
  rw [Search.lookup, kit_opens state]
  dsimp only
  rw [if_neg List.not_mem_nil, Search.expand]
  dsimp only
  rw [absent]
  dsimp only
  rw [binds]
  dsimp only
  rw [Search.follow, Search.lookup, kit_missing]
  · exact ⟨_, rfl, state⟩
  · exact state

theorem kit_exports {w : Work Library} (state : w.state = kit) : ∃ exports w',
    exportedClasses Library.provider ⟨"./index.ts"⟩ w = some (.ok exports, w') ∧ w'.state = kit ∧
      exports.classes.keys = ["Widget", "Hidden"] ∧ exports.failed.map (·.1) = ["Gone"] := by
  have own : kitIndex.exportedClasses.keys = ["Widget", "Hidden"] := by decide +kernel
  have reexports : kitIndex.reexports.keys = ["Gone"] := by decide +kernel
  have wildcards : kitIndex.wildcards = [] := by decide +kernel
  have free : (Enumeration.addClasses kitModule.path ["Widget", "Hidden"] .empty).isTaken "Gone" = false := by
    decide +kernel
  have listed : (Enumeration.addClasses kitModule.path ["Widget", "Hidden"] .empty).classes.keys =
      ["Widget", "Hidden"] := by decide +kernel
  obtain ⟨w', resolved, state'⟩ := kit_gone (w := w) state
  rw [exportedClasses, kit_opens state]
  dsimp only
  rw [Enumeration.addFile, if_neg List.not_mem_nil, Enumeration.addOwn, own, reexports, wildcards, List.foldlM_cons,
    Enumeration.addReexport]
  dsimp only
  have here : kitModule.path = ⟨"./index.ts"⟩ := rfl
  rw [free, here, resolved]
  simp only [Option.bind_eq_bind, Option.bind_some, Bool.false_eq_true, if_false, ResolveError.isSymbolNotFound,
    List.foldlM_nil, Option.pure_def]
  rw [Enumeration.addTargets]
  exact ⟨_, _, rfl, state', listed, rfl⟩

def kitPlan (exports : ExportList) : Plan :=
  { package := kitPackage, entry := ⟨"./index.ts"⟩, exports, outputDir := ⟨"./components"⟩, extension := ".jsonld" }

theorem kit_widget {w : Work Library} (state : w.state = kit) (exports : ExportList) :
    ∃ w', generateClass (kitPlan exports) "Widget" w = some (.ok ⟨"./components/Widget.jsonld"⟩, w') := by
  have here : kitIndex.local? .classes "Widget" =
    some (.classDecl { (default : ClassDeclaration) with name := "Widget" }) := by decide +kernel
  have written : ∀ content, ∃ tree, kit.tree.write ⟨"./components/Widget.jsonld"⟩ content = .ok tree :=
    fun content => ⟨_, rfl⟩
  obtain ⟨symbol, w', resolved, state', declared⟩ : ∃ symbol w', resolve Library.provider .classes
      { Reference.of "Widget" (kitPlan exports).entry with package := some (kitPlan exports).package.name } w =
        some (.ok symbol, w') ∧ w'.state = kit ∧
      symbol.declaration = .classDecl { (default : ClassDeclaration) with name := "Widget" } := by
    rw [resolve]
    dsimp only [Reference.of, kitPlan]
    rw [Search.lookup, kit_opens state]
    dsimp only
    rw [if_neg List.not_mem_nil, Search.expand, here]
    exact ⟨_, _, rfl, state, rfl⟩
  obtain ⟨w'', linked, state''⟩ : ∃ w'', loadLineage Library.provider symbol w' =
      some (.ok (.node symbol none []), w'') ∧ w''.state = kit := by
    have top : Link.edges symbol.declaration = [] := by rw [declared]; rfl
    have alone : Lineage.ofParents symbol [] = .node symbol none [] := by rw [Lineage.ofParents]; simp
    rw [loadLineage, Work.link, if_neg List.not_mem_nil, top, Work.linkAll]
    refine ⟨Link.noteLinked (.node symbol none []) w', by rw [← alone]; rfl, ?_⟩
    unfold Link.noteLinked
    split <;> exact state'
  rw [generateClass, describe]
  dsimp only
  rw [resolved]
  simp only [Option.bind_eq_bind, Option.bind_some, linked, Descriptor.ofLineage?, Lineage.symbol, declared, Option.pure_def]
  unfold writeDescriptor
  have file : (kitPlan exports).fileFor "Widget" = ⟨"./components/Widget.jsonld"⟩ := by
    change Path.joinText ⟨"./components"⟩ ("Widget" ++ ".jsonld") = _
    decide +kernel
  rw [state'', file]
  obtain ⟨tree, made⟩ := written _
  rw [made]
  exact ⟨_, rfl⟩

theorem kit_runs : ∃ report w', Generate.run .defaults (.start kit) = some (.ok report, w') ∧
    report.written.map (·.1) = ["Widget"] ∧ report.ignored = ["Hidden"] ∧ report.failed.map (·.1) = ["Gone"] := by
  have loaded : Package.load kit.tree Settings.defaults.packageDir = .ok kitPackage := by decide +kernel
  have ignores : IgnoreList.load kit.tree Settings.defaults.ignorePath = (.ok ⟨["Hidden"]⟩, []) := rfl
  have found : findEntry kit.tree kitPackage Settings.defaults.sourceDir = .ok ⟨"./index.ts"⟩ := by decide +kernel
  have made : kit.tree.createDirectories Settings.defaults.outputPath = .ok kit.tree := rfl
  have output : Settings.defaults.outputPath = ⟨"./components"⟩ := by decide +kernel
  obtain ⟨exports, w, enumerated, state, keys, failed⟩ := kit_exports
    (w := { Work.start kit with log := (Work.start kit).log ++ [kitPackage.loadedEntry] ++ [] }) rfl
  have plan : Plan.mk kitPackage ⟨"./index.ts"⟩ exports Settings.defaults.outputPath Settings.defaults.extension =
      kitPlan exports := by
    rw [output]
    rfl
  have generated : ∀ v : Work Library, v.state = kit → ∃ diagnostics finished,
      generateAll (kitPlan exports) ["Widget"] v =
        some ([{ name := "Widget", result := .ok ⟨"./components/Widget.jsonld"⟩, diagnostics }], finished) := by
    intro v state
    obtain ⟨v', attempted⟩ := kit_widget (w := { v with diagnostics := [] }) state exports
    exact ⟨v'.diagnostics, { v' with diagnostics := v.diagnostics }, by rw [generateAll, attempted]; rfl⟩
  have tree : (Work.start kit).state.tree = kit.tree := rfl
  unfold Generate.run
  rw [tree, loaded]
  dsimp only
  rw [tree, ignores]
  dsimp only
  rw [found]
  dsimp only
  rw [enumerated]
  simp only [Option.bind_eq_bind, Option.bind_some, carryOut, Work.say, state, made, keys, plan]
  have selected : ["Widget", "Hidden"].filter (!(IgnoreList.mk ["Hidden"]).contains ·) = ["Widget"] := by
    decide +kernel
  have whole : Library.mk kit.tree kit.known = kit := rfl
  rw [selected, whole]
  generalize w.log ++ _ = log
  obtain ⟨diagnostics, finished, all⟩ := generated { state := kit, diagnostics := w.diagnostics, log } rfl
  rw [all]
  obtain ⟨-, written, ignored, lost⟩ := assemble_adds (kitPlan exports) ⟨["Hidden"]⟩
    (["Widget", "Hidden"].filter (IgnoreList.mk ["Hidden"]).contains)
    [{ name := "Widget", result := .ok ⟨"./components/Widget.jsonld"⟩, diagnostics }] finished
  refine ⟨_, _, rfl, by rw [written]; rfl, ?_, ?_⟩
  · rw [ignored, excused]
    change _ ++ (exports.failed.map (·.1)).filter _ = _
    rw [failed]
    decide +kernel
  · rw [lost, List.map_append, blamed_names]
    change (exports.failed.map (·.1)).filter _ ++ [] = _
    rw [failed]
    decide +kernel

theorem run_accounts_kit : ∃ report w', Generate.run .defaults (.start kit) = some (.ok report, w') ∧
    report.written.map (·.1) = ["Widget"] ∧ report.ignored = ["Hidden"] ∧ report.failed.map (·.1) = ["Gone"] ∧
    (report.written.map (·.1) ++ report.ignored ++ report.failed.map (·.1)).Nodup := by
  obtain ⟨report, w', ran, written, ignored, lost⟩ := kit_runs
  obtain ⟨_, _, _, _, _, -, -, -, -, -, accounted, -⟩ := run_accounts ran
  exact ⟨report, w', ran, written, ignored, lost, accounted⟩

end ComponentAtlas
