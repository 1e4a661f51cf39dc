import ComponentAtlas.Proofs.ClassTurns

namespace ComponentAtlas
open Outline

namespace Generate

variable {plan : Plan} {w w' : Work Library} {start : Library}

theorem generateAll_diagnostics (generated : generateAll plan names w = some (outcomes, w')) :
    w'.diagnostics = w.diagnostics := by
  induction names generalizing w outcomes with
  | nil =>
    cases generated
    rfl
  | cons name rest ih =>
    obtain ⟨_, done, _, -, all, -⟩ := generateAll_cons_iff.mp generated
    exact ih (w := { done with diagnostics := w.diagnostics }) all

structure Outcome.Alike (o o' : Outcome) : Prop where
  name : o.name = o'.name
  result : Agrees GenerateError.Alike Eq o.result o'.result
  diagnostics : List.Forall₂ (Diagnostic.Like Path.Same) o.diagnostics o'.diagnostics

theorem Outcome.Alike.isOk {o o' : Outcome} (alike : o.Alike o') : o.result.isOk = o'.result.isOk := by
  have results := alike.result
  generalize o.result = one at results
  generalize o'.result = two at results
  cases results <;> rfl

-- A class comes to a certain outcome, whichever descriptors of others have been written before.
def Settled (plan : Plan) (start : Library) (outcomes : List Outcome) (name : String) : Prop :=
  ∃ o ∈ outcomes, o.name = name ∧ ∀ w : Work Library, w.diagnostics = [] →
    start.Beside (Others plan start.tree outcomes name) w.state →
    ∃ result w', generateClass plan name w = some (result, w') ∧ o.Alike { name, result, diagnostics := w'.diagnostics }

-- Classes that are settled come to their outcomes in any order. The induction is on those still to do; `done` are the
-- ones whose descriptors may have been written.
theorem generateAll_settled (done : List String) (holds : start.tree.Holds plan.outputDir)
    (named : ∀ name ∈ order, Path.IsName (name ++ plan.extension))
    (settled : ∀ name ∈ order, Settled plan start outcomes name) (distinct : (done ++ order).Nodup)
    (beside : start.Beside
      (fun place => ∃ o ∈ outcomes, o.name ∈ done ∧ o.result.isOk = true ∧ place = plan.output start.tree o.name) w.state) :
    ∃ outcomes' w', generateAll plan order w = some (outcomes', w') ∧ ∀ o' ∈ outcomes', ∃ o ∈ outcomes, o.Alike o' := by
  induction order generalizing done w with
  | nil => exact ⟨[], w, rfl, nofun⟩
  | cons name rest ih =>
    obtain ⟨o, member, called, comes⟩ := settled name List.mem_cons_self
    have new : name ∉ done := fun old => (List.nodup_append.mp distinct).2.2 _ old _ List.mem_cons_self rfl
    have apart : start.Beside (Others plan start.tree outcomes name) w.state := by
      refine beside.mono ?_
      rintro place ⟨o', inside, among, ok, here⟩
      refine ⟨o', inside, fun same => new (same ▸ among), ok, here⟩
    obtain ⟨result, left, attempted, alike⟩ := comes { w with diagnostics := [] } rfl apart
    have stepped : start.Beside _ left.state :=
      generateClass_beside (w := { w with diagnostics := [] }) holds (named name List.mem_cons_self) beside attempted
    have onward : start.Beside (fun place => ∃ o ∈ outcomes, o.name ∈ done ++ [name] ∧ o.result.isOk = true ∧
        place = plan.output start.tree o.name) left.state := by
      refine stepped.mono ?_
      rintro place (⟨o', inside, among, ok, here⟩ | ⟨ok, here⟩)
      · exact ⟨o', inside, List.mem_append_left _ among, ok, here⟩
      · refine ⟨o, member, called ▸ List.mem_append_right _ (List.mem_singleton_self _), alike.isOk.trans ok, ?_⟩
        rw [here, called]
    obtain ⟨later, w', all, alikes⟩ := ih (done ++ [name]) (w := { left with diagnostics := w.diagnostics })
      (fun other inside => named other (List.mem_cons_of_mem _ inside))
      (fun other inside => settled other (List.mem_cons_of_mem _ inside)) (by simpa using distinct) onward
    refine ⟨_, w', generateAll_cons_iff.mpr ⟨result, left, later, attempted, all, rfl⟩, ?_⟩
    rintro o' inside
    rcases List.mem_cons.mp inside with rfl | further
    · exact ⟨o, member, alike⟩
    · exact alikes o' further

def arrange (names : List String) (outcomes : List Outcome) : List Outcome :=
  names.filterMap fun name => outcomes.find? (·.name = name)

theorem find?_name {outcomes : List Outcome} (distinct : (outcomes.map (·.name)).Nodup) (member : o ∈ outcomes) :
    outcomes.find? (·.name = o.name) = some o := by
  cases found : outcomes.find? (·.name = o.name) with
  | none => exact absurd (List.find?_eq_none.mp found o member) (by simp)
  | some o' =>
    have called : o'.name = o.name := by simpa using List.find?_some found
    rw [List.inj_on_of_nodup_map distinct (List.mem_of_find?_eq_some found) member called]

theorem arrange_perm {names : List String} {outcomes : List Outcome} (distinct : (outcomes.map (·.name)).Nodup)
    (perm : (outcomes.map (·.name)).Perm names) : (arrange names outcomes).Perm outcomes := by
  have same : (arrange names outcomes).Perm
      ((outcomes.map (·.name)).filterMap fun name => outcomes.find? (·.name = name)) := (perm.filterMap _).symm
  have own : (outcomes.map (·.name)).filterMap (fun name => outcomes.find? (·.name = name)) = outcomes := by
    rw [List.filterMap_map]
    conv_rhs => rw [← List.filterMap_some (l := outcomes)]
    exact List.filterMap_congr fun o member => find?_name distinct member
  rw [own] at same
  exact same

theorem arrange_alike {outcomes outcomes' : List Outcome} (distinct : (outcomes.map (·.name)).Nodup)
    (perm : (outcomes'.map (·.name)).Perm (outcomes.map (·.name)))
    (alike : ∀ o' ∈ outcomes', ∃ o ∈ outcomes, o.Alike o') :
    List.Forall₂ Outcome.Alike outcomes (arrange (outcomes.map (·.name)) outcomes') := by
  have distinct' := perm.nodup_iff.mpr distinct
  have each : ∀ o ∈ outcomes, ∃ o', outcomes'.find? (·.name = o.name) = some o' ∧ o.Alike o' := by
    intro o member
    obtain ⟨o', member', called⟩ := List.mem_map.mp (perm.mem_iff.mpr (List.mem_map_of_mem member))
    obtain ⟨other, inside, both⟩ := alike o' member'
    cases List.inj_on_of_nodup_map distinct inside member (both.name.trans called)
    exact ⟨o', called ▸ find?_name distinct' member', both⟩
  unfold arrange
  clear distinct perm alike
  induction outcomes with
  | nil => exact .nil
  | cons o rest ih =>
    obtain ⟨o', found, both⟩ := each o List.mem_cons_self
    simp only [List.map_cons, List.filterMap_cons, found]
    exact .cons both (ih fun other member => each other (List.mem_cons_of_mem _ member))

end Generate

structure GenerateReport.Alike (r r' : GenerateReport) : Prop where
  package : r.package = r'.package
  entry : r.entry = r'.entry
  written : r.written = r'.written
  ignored : r.ignored = r'.ignored
  failed : List.Forall₂ (fun x x' => x.1 = x'.1 ∧ x.2.Alike x'.2) r.failed r'.failed
  diagnostics : List.Forall₂ (Diagnostic.Like Path.Same) r.diagnostics r'.diagnostics

namespace Generate

variable {plan : Plan} {w w' start finished : Work Library} {r r' : GenerateReport}

theorem skipFailedExport_alike (alike : r.Alike r') (ignore : IgnoreList) (name : String) (e : ResolveError) :
    (skipFailedExport ignore r w name e).1.Alike (skipFailedExport ignore r' w' name e).1 := by
  unfold skipFailedExport
  split
  · exact ⟨alike.package, alike.entry, alike.written, congrArg (· ++ [name]) alike.ignored, alike.failed, alike.diagnostics⟩
  · exact ⟨alike.package, alike.entry, alike.written, alike.ignored,
      List.rel_append alike.failed (.cons ⟨rfl, .same⟩ .nil), alike.diagnostics⟩

theorem addOutcome_alike (alike : r.Alike r') (outcomes : o.Alike o') :
    (addOutcome r w o).1.Alike (addOutcome r' w' o').1 := by
  have notes := List.rel_append alike.diagnostics outcomes.diagnostics
  have results := outcomes.result
  unfold addOutcome
  dsimp only
  generalize o.result = one at results
  generalize o'.result = two at results
  rw [outcomes.name]
  cases results with
  | ok equal =>
    cases equal
    exact ⟨alike.package, alike.entry, congrArg (· ++ [_]) alike.written, alike.ignored, alike.failed, notes⟩
  | error both =>
    exact ⟨alike.package, alike.entry, alike.written, alike.ignored,
      List.rel_append alike.failed (.cons ⟨rfl, both⟩ .nil), notes⟩

theorem reportOn_alike (plan : Plan) (ignore : IgnoreList) (diagnostics : w.diagnostics = w'.diagnostics)
    (outcomes : List.Forall₂ Outcome.Alike os os') :
    (reportOn plan ignore os w).1.Alike (reportOn plan ignore os' w').1 := by
  have notes : List.Forall₂ (Diagnostic.Like Path.Same) w.diagnostics w'.diagnostics := by
    rw [diagnostics]
    exact List.forall₂_same.mpr fun _ _ => ⟨rfl, rfl, rfl, .same⟩
  unfold reportOn assemble
  -- Both folds keep reports alike, whatever is said beside them.
  let Both (x x' : GenerateReport × Work Library) : Prop := x.1.Alike x'.1
  refine List.rel_foldl (P := Both) (R := Outcome.Alike) ?_ (List.rel_foldl (P := Both) (R := Eq) ?_ ?_ ?_) outcomes
  · intro x x' alike o o' both
    exact addOutcome_alike alike both
  · rintro x x' alike failure _ rfl
    exact skipFailedExport_alike alike ignore failure.1 failure.2
  · exact ⟨rfl, rfl, rfl, rfl, .nil, notes⟩
  · exact List.forall₂_same.mpr fun _ _ => rfl

-- What a run needs to come to the same in any order: no class looks for a source in the place of a descriptor that
-- is written for another.
def Apart (plan : Plan) (names : List String) (start : Work Library) (outcomes : List Outcome) : Prop :=
  ∀ name reached path place, Turn plan names start name reached → Asks plan name reached path →
    reached.state.tree.Probes path place → ¬ Others plan start.state.tree outcomes name place

theorem settled_of_apart {names : List String} (holds : start.state.tree.Holds plan.outputDir)
    (named : ∀ name ∈ names, Path.IsName (name ++ plan.extension)) (distinct : names.Nodup)
    (generated : generateAll plan names start = some (outcomes, finished)) (apart : Apart plan names start outcomes)
    (member : name ∈ names) : Settled plan start.state outcomes name := by
  obtain ⟨reached, result, left, turn, fresh, attempted, inside, beside, -⟩ :=
    generateAll_reaches holds named distinct generated member
  refine ⟨_, inside, rfl, fun w fresh' beside' => ?_⟩
  obtain ⟨result', left', attempted', results, notes, -⟩ := generateClass_alike holds (named name member)
    (not_others plan _ outcomes name) beside beside' fresh fresh'
    (fun path asks place probes => apart name reached path place turn asks probes) attempted
  exact ⟨result', left', attempted', rfl, results, notes⟩

theorem entries_eq {names order : List String} (holds : start.state.tree.Holds plan.outputDir)
    (named : ∀ name ∈ names, Path.IsName (name ++ plan.extension)) (distinct : names.Nodup)
    (generated : generateAll plan names start = some (outcomes, finished)) (apart : Apart plan names start outcomes)
    (perm : order.Perm names) (generated' : generateAll plan order start = some (outcomes', finished'))
    (alike : ∀ o' ∈ outcomes', ∃ o ∈ outcomes, o.Alike o') (place : Location) :
    finished'.state.tree.entry? place = finished.state.tree.entry? place := by
  have named' : ∀ name ∈ order, Path.IsName (name ++ plan.extension) := fun name member => named name (perm.mem_iff.mp member)
  by_cases output : ∃ name ∈ names, place = plan.output start.state.tree name
  · obtain ⟨name, member, rfl⟩ := output
    obtain ⟨reached, result, left, turn, fresh, attempted, -, beside, last⟩ :=
      generateAll_reaches holds named distinct generated member
    obtain ⟨reached', result', left', -, fresh', attempted', -, beside', last'⟩ :=
      generateAll_reaches holds named' (perm.nodup_iff.mpr distinct) generated' (perm.mem_iff.mpr member)
    have beside' : start.state.Beside (Others plan start.state.tree outcomes name) reached'.state := by
      refine beside'.mono ?_
      rintro place ⟨o', inside, other, ok, here⟩
      obtain ⟨o, inside', both⟩ := alike o' inside
      exact ⟨o, inside', both.name ▸ other, both.isOk.trans ok, by rw [both.name]; exact here⟩
    obtain ⟨_, _, attempted'', -, -, same⟩ := generateClass_alike holds (named name member) (not_others plan _ outcomes name) beside
      beside' fresh fresh' (fun path asks place probes => apart name reached path place turn asks probes) attempted
    rw [attempted'] at attempted''
    cases attempted''
    rw [last, last', same]
  · have one : start.state.Beside _ finished.state := generateAll_beside holds named (.refl (fun _ => False) _) generated
    have two : start.state.Beside _ finished'.state := generateAll_beside holds named' (.refl (fun _ => False) _) generated'
    rw [one.tree.elsewhere, two.tree.elsewhere]
    · rintro (no | ⟨o, inside, -, here⟩)
      · cases no
      · exact output ⟨_, perm.mem_iff.mp (generateAll_names generated' ▸ List.mem_map_of_mem inside), here⟩
    · rintro (no | ⟨o, inside, -, here⟩)
      · cases no
      · exact output ⟨_, generateAll_names generated ▸ List.mem_map_of_mem inside, here⟩

-- Where all that is asked for are files, these need only lie apart from the descriptors.
theorem apart_of_asked {names : List String} {asked : List Path} {tree : FileTree} (made : tree.Grows start.state.tree)
    (generated : generateAll plan names start = some (outcomes, finished))
    (asks : ∀ name reached path, Turn plan names start name reached → Asks plan name reached path → path ∈ asked)
    (files : ∀ path ∈ asked, tree.isFile path = true)
    (separate : ∀ path ∈ asked, ∀ x ∈ outcomes.filterMap (·.written?), tree.goal x.2 ≠ tree.goal path) :
    ∀ name reached path place, Turn plan names start name reached → Asks plan name reached path →
      reached.state.tree.Probes path place →
      ∀ o ∈ outcomes, o.name ≠ name → ∀ file, o.result = .ok file → finished.state.tree.locate file ≠ .ok place := by
  intro name reached path place turn asked probes o member _ file result located
  have listed := asks name reached path turn asked
  obtain ⟨front, back, earlier, before, -, generated', rfl⟩ := turn
  have grown : tree.Grows before.state.tree := made.trans (generateAll_fills generated').grown
  have read := FileTree.goal_of_locate (FileTree.probes_of_isFile (grown.isFile (files path listed)) probes)
  have wrote := FileTree.goal_of_locate located
  rw [grown.goal] at read
  rw [(made.trans (generateAll_fills generated).grown).goal] at wrote
  exact separate path listed (o.name, file) (List.mem_filterMap.mpr ⟨o, member, written?_eq_some.mpr ⟨rfl, result⟩⟩)
    (wrote.symm.trans read)

def askBy (means : Means Library) (noting : Means (Library × List Path)) (plan : Plan) :
    List String → Work Library → Option (List Path)
  | [], _ => some []
  | name :: rest, w =>
    (describeBy noting plan name (Work.noting { w with diagnostics := [] })).bind fun (_, noted) =>
      (generateClassBy means plan name { w with diagnostics := [] }).bind fun (_, done) =>
        (askBy means noting plan rest { done with diagnostics := w.diagnostics }).map (noted.state.2 ++ ·)

theorem asked_within (bound : Nat) {plan : Plan} {w : Work Library} {asked : List Path}
    (seen : askBy (.within bound Library.provider) (.within bound Library.provider.noting) plan names w = some asked)
    (turn : Turn plan names w name reached) (asks : Asks plan name reached path) : path ∈ asked := by
  induction names generalizing w asked with
  | nil =>
    obtain ⟨front, back, -, -, equal, -⟩ := turn
    simp at equal
  | cons first rest ih =>
    obtain ⟨⟨_, noted⟩, described, seen⟩ := Option.bind_eq_some_iff.mp seen
    obtain ⟨⟨result, done⟩, attempted, seen⟩ := Option.bind_eq_some_iff.mp seen
    obtain ⟨further, all, rfl⟩ := Option.map_eq_some_iff.mp seen
    rcases turn.cases with ⟨rfl, rfl⟩ | ⟨result', done', attempted', later⟩
    · obtain ⟨_, noted', described', member⟩ := asks
      have same := describeBy_completes (Means.within_completes bound _) plan name _ _ described
      rw [described'] at same
      cases same
      exact List.mem_append_left _ member
    · have same := generateClassBy_completes (Means.within_completes bound _) plan first _ _ attempted
      rw [← generateClass_eq, attempted'] at same
      cases same
      exact List.mem_append_right _ (ih all later)

-- What can be seen when a run has ended: what was written, what failed, and the text of a file.
structure Aftermath where
  written : List (String × Path)
  failed : List (String × String)
  text : Except IoError String
deriving DecidableEq

def aftermath (file : Path) (x : List Outcome × Work Library) : Aftermath :=
  { written := x.1.filterMap (·.written?)
    failed := (x.1.filterMap (·.failed?)).map fun failure => (failure.1, failure.2.message)
    text := x.2.state.tree.readText file }

structure Survey where
  selected : List String
  asked : List Path
  first : Aftermath
  second : Aftermath
deriving DecidableEq

def surveyBy (means : Means Library) (noting : Means (Library × List Path)) (settings : Settings) (order : List String)
    (file : Path) (w : Work Library) : Option Survey :=
  (prepareBy means settings w).bind fun
    | (.error _, _) => none
    | (.ok (plan, ignore), start) =>
      (askBy means noting plan (plan.selected ignore) start).bind fun asked =>
        (generateAllBy means plan (plan.selected ignore) start).bind fun first =>
          (generateAllBy means plan order start).map fun second =>
            { selected := plan.selected ignore
              asked := asked.eraseDups
              first := aftermath file first
              second := aftermath file second }

theorem survey_within (bound : Nat) {settings : Settings} {w : Work Library} {s : Survey}
    (seen : surveyBy (.within bound Library.provider) (.within bound Library.provider.noting) settings order file w =
      some s) : ∃ plan ignore start first second,
      prepare settings w = some (.ok (plan, ignore), start) ∧ plan.selected ignore = s.selected ∧
      generateAll plan (plan.selected ignore) start = some first ∧ aftermath file first = s.first ∧
      generateAll plan order start = some second ∧ aftermath file second = s.second ∧
      ∀ name reached path, Turn plan (plan.selected ignore) start name reached → Asks plan name reached path →
        path ∈ s.asked := by
  obtain ⟨⟨_ | ⟨plan, ignore⟩, start⟩, prepared, seen⟩ := Option.bind_eq_some_iff.mp seen
  · cases seen
  obtain ⟨asked, asks, seen⟩ := Option.bind_eq_some_iff.mp seen
  obtain ⟨first, generated, seen⟩ := Option.bind_eq_some_iff.mp seen
  obtain ⟨second, generated', rfl⟩ := Option.map_eq_some_iff.mp seen
  exact ⟨plan, ignore, start, first, second, prepare_within bound prepared, rfl, generateAll_within bound generated, rfl,
    generateAll_within bound generated', rfl,
    fun name reached path turn asks' => List.mem_eraseDups.mpr (asked_within bound asks turn asks')⟩

end Generate

-- The order in which the classes are taken up does not matter, if their names are names of files and no class looks
-- for a source where the descriptor of another is written: in any order the run comes to an end, with the same outcome
-- for every class, the same files and, from the outcomes in the order of the names, the same report.
theorem run_any_order {settings : Settings} {w start finished : Work Library} {plan : Generate.Plan}
    {ignore : IgnoreList} {outcomes : List Generate.Outcome}
    (prepared : Generate.prepare settings w = some (.ok (plan, ignore), start))
    (generated : Generate.generateAll plan (plan.selected ignore) start = some (outcomes, finished))
    (named : ∀ name ∈ plan.selected ignore, Path.IsName (name ++ plan.extension))
    (apart : ∀ name reached path place, Generate.Turn plan (plan.selected ignore) start name reached →
      Generate.Asks plan name reached path → reached.state.tree.Probes path place →
      ∀ o ∈ outcomes, o.name ≠ name → ∀ file, o.result = .ok file → finished.state.tree.locate file ≠ .ok place)
    {order : List String} (perm : order.Perm (plan.selected ignore)) :
    (∃ w', Generate.run settings w = some (.ok (Generate.reportOn plan ignore outcomes finished).1, w') ∧
      w'.state = finished.state) ∧
    ∃ outcomes' finished', Generate.generateAll plan order start = some (outcomes', finished') ∧
      (Generate.arrange (plan.selected ignore) outcomes').Perm outcomes' ∧
      List.Forall₂ Generate.Outcome.Alike outcomes (Generate.arrange (plan.selected ignore) outcomes') ∧
      (∀ place, finished'.state.tree.entry? place = finished.state.tree.entry? place) ∧
      (Generate.reportOn plan ignore outcomes finished).1.Alike
        (Generate.reportOn plan ignore (Generate.arrange (plan.selected ignore) outcomes') finished').1 := by
  have ready := Generate.prepare_ok prepared
  have holds := Generate.Prepared.holds ready
  have distinct := Generate.selected_nodup ready ignore
  have names := Generate.generateAll_names generated
  have separate : Generate.Apart plan (plan.selected ignore) start outcomes := by
    rintro name reached path place turn asks probes ⟨o, inside, other, ok, here⟩
    cases result : o.result with
    | error e =>
      rw [result] at ok
      cases ok
    | ok file =>
      have among : o.name ∈ plan.selected ignore := names ▸ List.mem_map_of_mem inside
      have written : (o.name, file) ∈ outcomes.filterMap (·.written?) :=
        List.mem_filterMap.mpr ⟨o, inside, Generate.written?_eq_some.mpr ⟨rfl, result⟩⟩
      have equal : file = plan.fileFor o.name := (Generate.written_fileFor generated written).2
      have grown := (Generate.generateAll_fills generated).grown
      have located := Generate.locate_output holds (named o.name among) grown
      exact apart name reached path place turn asks probes o inside other file result (by rw [equal, here]; exact located)
  have settled : ∀ name ∈ plan.selected ignore, Generate.Settled plan start.state outcomes name :=
    fun name => Generate.settled_of_apart holds named distinct generated separate
  have ran : Generate.run settings w = some (.ok (Generate.reportOn plan ignore outcomes finished).1,
      (Generate.reportOn plan ignore outcomes finished).2) := by
    rw [Generate.run_eq]
    refine Option.bind_eq_some_iff.mpr ⟨_, prepared, Option.map_eq_some_iff.mpr ⟨(outcomes, finished), ?_, rfl⟩⟩
    rw [← Generate.generateAll_eq]
    exact generated
  refine ⟨⟨_, ran, Generate.assemble_state ..⟩, ?_⟩
  obtain ⟨outcomes', finished', generated', alike⟩ := Generate.generateAll_settled [] (w := start) holds
    (fun name member => named name (perm.mem_iff.mp member)) (fun name member => settled name (perm.mem_iff.mp member))
    (perm.nodup_iff.mpr distinct) (.refl _ _)
  have names' := Generate.generateAll_names generated'
  have arranged := Generate.arrange_alike (names ▸ distinct) (names ▸ names' ▸ perm) alike
  rw [names] at arranged
  refine ⟨outcomes', finished', generated',
    Generate.arrange_perm (names' ▸ perm.nodup_iff.mpr distinct) (names' ▸ perm), arranged,
    Generate.entries_eq holds named distinct generated separate perm generated' alike, ?_⟩
  have notes : finished.diagnostics = finished'.diagnostics :=
    (Generate.generateAll_diagnostics generated).trans (Generate.generateAll_diagnostics generated').symm
  exact Generate.reportOn_alike plan ignore notes arranged

theorem workshop_survey : Generate.surveyBy (.within 20 Library.provider) (.within 20 Library.provider.noting)
    workshopSettings ["Gadget", "Broken", "Widget"] ⟨"./out/atlas/Gadget.jsonld"⟩ workshop = some
    { selected := ["Widget", "Broken", "Gadget"]
      asked := [⟨"./index.ts"⟩]
      first :=
        { written := [("Widget", ⟨"./out/atlas/Widget.jsonld"⟩), ("Gadget", ⟨"./out/atlas/Gadget.jsonld"⟩)]
          failed := [("Broken", "Could not load class or interface 'Missing' from './index.ts'")]
          text := .ok ("\x7b\n  \"@id\": \"workshop:Gadget\",\n  \"requireElement\": \"Gadget\",\n" ++
            "  \"@type\": \"Class\",\n  \"extends\": [\n    \"workshop:Widget\"\n  ]\n\x7d") }
      second :=
        { written := [("Gadget", ⟨"./out/atlas/Gadget.jsonld"⟩), ("Widget", ⟨"./out/atlas/Widget.jsonld"⟩)]
          failed := [("Broken", "Could not load class or interface 'Missing' from './index.ts'")]
          text := .ok ("\x7b\n  \"@id\": \"workshop:Gadget\",\n  \"requireElement\": \"Gadget\",\n" ++
            "  \"@type\": \"Class\",\n  \"extends\": [\n    \"workshop:Widget\"\n  ]\n\x7d") } } := by
  decide +kernel

theorem run_any_order_workshop : ∃ plan ignore start outcomes finished outcomes' finished',
    Generate.prepare workshopSettings workshop = some (.ok (plan, ignore), start) ∧
    plan.selected ignore = ["Widget", "Broken", "Gadget"] ∧
    Generate.generateAll plan (plan.selected ignore) start = some (outcomes, finished) ∧
    Generate.generateAll plan ["Gadget", "Broken", "Widget"] start = some (outcomes', finished') ∧
    List.Forall₂ Generate.Outcome.Alike outcomes (Generate.arrange (plan.selected ignore) outcomes') ∧
    (∀ place, finished'.state.tree.entry? place = finished.state.tree.entry? place) ∧
    (Generate.reportOn plan ignore outcomes finished).1.written =
      [("Widget", ⟨"./out/atlas/Widget.jsonld"⟩), ("Gadget", ⟨"./out/atlas/Gadget.jsonld"⟩)] ∧
    (Generate.reportOn plan ignore outcomes finished).1.Alike
      (Generate.reportOn plan ignore (Generate.arrange (plan.selected ignore) outcomes') finished').1 := by
  obtain ⟨plan, ignore, start, ⟨outcomes, finished⟩, -, prepared, selected, generated, seen, -, -, asks⟩ :=
    Generate.survey_within 20 workshop_survey
  have ready := Generate.prepare_ok prepared
  have written : outcomes.filterMap (·.written?) =
      [("Widget", ⟨"./out/atlas/Widget.jsonld"⟩), ("Gadget", ⟨"./out/atlas/Gadget.jsonld"⟩)] :=
    congrArg Generate.Aftermath.written seen
  have named : ∀ name ∈ plan.selected ignore, Path.IsName (name ++ plan.extension) := by
    rw [selected, ready.extension]
    decide +kernel
  have perm : ["Gadget", "Broken", "Widget"].Perm (plan.selected ignore) := by
    rw [selected]
    decide
  have separate : ∀ path ∈ [(⟨"./index.ts"⟩ : Path)], ∀ x ∈ outcomes.filterMap (·.written?),
      workshop.state.tree.goal x.2 ≠ workshop.state.tree.goal path := by
    rw [written]
    decide +kernel
  have apart := Generate.apart_of_asked (FileTree.makeDirectories_grows ready.output) generated asks (by decide +kernel)
    separate
  obtain ⟨-, outcomes', finished', generated', -, alike, entries, reports⟩ := run_any_order prepared generated named apart perm
  refine ⟨plan, ignore, start, outcomes, finished, outcomes', finished', prepared, selected, generated, generated', alike,
    entries, ?_, reports⟩
  rw [Generate.reportOn_written, written]

-- Two names that lead to one file, and one that leads through it.
def rivals : Work Library :=
  Generate.project
    [ ("package.json", "\x7b\"name\":\"aliases\"\x7d"),
      ("index.ts", "export \x7b A as \"x\", B as \"./x\", A as \"x.jsonld/z\" \x7d from './lib.ts';\n"),
      ("lib.ts", "export class A \x7b\x7d\nexport abstract class B \x7b\x7d\n") ]

theorem rivals_survey : Generate.surveyBy (.within 20 Library.provider) (.within 20 Library.provider.noting) .defaults
    ["x.jsonld/z", "./x", "x"] ⟨"./components/x.jsonld"⟩ rivals = some
    { selected := ["x", "./x", "x.jsonld/z"]
      asked := [⟨"lib.ts"⟩, ⟨"./index.ts"⟩]
      first :=
        { written := [("x", ⟨"./components/x.jsonld"⟩), ("./x", ⟨"./components/./x.jsonld"⟩)]
          failed :=
            [("x.jsonld/z", "Failed to write descriptor './components/x.jsonld/z.jsonld': Not a directory (os error 20)")]
          text := .ok ("\x7b\n  \"@id\": \"aliases:./x\",\n  \"requireElement\": \"./x\",\n" ++
            "  \"@type\": \"AbstractClass\"\n\x7d") }
      second :=
        { written := [("./x", ⟨"./components/./x.jsonld"⟩), ("x", ⟨"./components/x.jsonld"⟩)]
          failed :=
            [("x.jsonld/z",
              "Failed to write descriptor './components/x.jsonld/z.jsonld': No such file or directory (os error 2)")]
          text := .ok "\x7b\n  \"@id\": \"aliases:x\",\n  \"requireElement\": \"x\",\n  \"@type\": \"Class\"\n\x7d" } } := by
  decide +kernel

-- No class looks for a source where a descriptor is written, and yet the order decides which descriptor the file holds
-- in the end, and how the third class fails.
theorem run_order_matters : ∃ plan ignore start outcomes finished outcomes' finished',
    Generate.prepare .defaults rivals = some (.ok (plan, ignore), start) ∧
    Generate.generateAll plan (plan.selected ignore) start = some (outcomes, finished) ∧
    (∀ name reached path place, Generate.Turn plan (plan.selected ignore) start name reached →
      Generate.Asks plan name reached path → reached.state.tree.Probes path place →
      ∀ o ∈ outcomes, o.name ≠ name → ∀ file, o.result = .ok file → finished.state.tree.locate file ≠ .ok place) ∧
    ["x.jsonld/z", "./x", "x"].Perm (plan.selected ignore) ∧
    Generate.generateAll plan ["x.jsonld/z", "./x", "x"] start = some (outcomes', finished') ∧
    (outcomes.filterMap (·.failed?)).map (fun failure => (failure.1, failure.2.message)) =
      [("x.jsonld/z", "Failed to write descriptor './components/x.jsonld/z.jsonld': Not a directory (os error 20)")] ∧
    (outcomes'.filterMap (·.failed?)).map (fun failure => (failure.1, failure.2.message)) =
      [("x.jsonld/z",
        "Failed to write descriptor './components/x.jsonld/z.jsonld': No such file or directory (os error 2)")] ∧
    finished.state.tree.readText ⟨"./components/x.jsonld"⟩ =
      .ok ("\x7b\n  \"@id\": \"aliases:./x\",\n  \"requireElement\": \"./x\",\n" ++
        "  \"@type\": \"AbstractClass\"\n\x7d") ∧
    finished'.state.tree.readText ⟨"./components/x.jsonld"⟩ =
      .ok "\x7b\n  \"@id\": \"aliases:x\",\n  \"requireElement\": \"x\",\n  \"@type\": \"Class\"\n\x7d" := by
  obtain ⟨plan, ignore, start, ⟨outcomes, finished⟩, ⟨outcomes', finished'⟩, prepared, selected, generated, seen, generated',
    seen', asks⟩ := Generate.survey_within 20 rivals_survey
  have ready := Generate.prepare_ok prepared
  have written : outcomes.filterMap (·.written?) =
      [("x", ⟨"./components/x.jsonld"⟩), ("./x", ⟨"./components/./x.jsonld"⟩)] :=
    congrArg Generate.Aftermath.written seen
  have separate : ∀ path ∈ [(⟨"lib.ts"⟩ : Path), ⟨"./index.ts"⟩], ∀ x ∈ outcomes.filterMap (·.written?),
      rivals.state.tree.goal x.2 ≠ rivals.state.tree.goal path := by
    rw [written]
    decide +kernel
  have apart := Generate.apart_of_asked (FileTree.makeDirectories_grows ready.output) generated asks (by decide +kernel)
    separate
  have perm : ["x.jsonld/z", "./x", "x"].Perm (plan.selected ignore) := by
    rw [selected]
    decide
  exact ⟨plan, ignore, start, outcomes, finished, outcomes', finished', prepared, generated, apart, perm, generated',
    congrArg Generate.Aftermath.failed seen, congrArg Generate.Aftermath.failed seen',
    congrArg Generate.Aftermath.text seen, congrArg Generate.Aftermath.text seen'⟩

end ComponentAtlas
