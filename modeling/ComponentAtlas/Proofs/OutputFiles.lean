import ComponentAtlas.Proofs.BoundedRuns

namespace ComponentAtlas
open Outline
open ComponentAtlas.Path (stays steps parts stepTo)

namespace Path

variable {file : String}

-- One piece of a path, and one that leads below.
def IsName (file : String) : Prop := '/' ∉ file.toList ∧ file ∉ ["", ".", ".."]

instance (file : String) : Decidable (IsName file) := inferInstanceAs (Decidable (_ ∧ _))

theorem parts_of_isName (named : IsName file) : (⟨file⟩ : Path).parts = [file.toList] := by
  have free : ∀ seg ∈ [file.toList], '/' ∉ seg := by simpa using named.1
  have whole := parts_of_glue (List.cons_ne_nil file.toList []) free
  simpa [glue] using whole

theorem step_of_isName (named : IsName file) : stays file.toList = false ∧ stepTo file.toList = .name file := by
  obtain ⟨-, other⟩ := named
  simp only [List.mem_cons, List.not_mem_nil, or_false, not_or] at other
  obtain ⟨some, one, two⟩ := other
  have unlike : ∀ name : String, file ≠ name → file.toList ≠ name.toList := fun name ne equal => ne (String.toList_inj.mp equal)
  constructor
  · have one' : file.toList ≠ ['.'] := unlike "." one
    simp [stays, some, one']
  · have two' : file.toList ≠ ['.', '.'] := unlike ".." two
    rw [stepTo, if_neg two', String.ofList_toList]

theorem relative_of_isName (named : IsName file) : (⟨file⟩ : Path).isAbsolute = false := by
  rw [← Bool.not_eq_true, isAbsolute_iff, parts_of_isName named]
  rintro ⟨_, _, equal⟩
  exact List.cons_ne_nil _ _ (List.cons.inj equal).2.symm

theorem isName_of_mem {p : Path} (member : .name file ∈ p.components) : IsName file := by
  rw [components_eq, List.mem_append, List.mem_map, List.mem_map] at member
  rcases member with ⟨span, opens, equal⟩ | ⟨seg, step, equal⟩
  · rcases p.opening_cases with ⟨-, opening⟩ | ⟨-, opening | opening⟩ <;> rw [opening] at opens
    · cases List.mem_singleton.mp opens
      cases equal
    · cases List.mem_singleton.mp opens
      cases equal
    · cases opens
  · obtain ⟨piece, leads⟩ := List.mem_filter.mp step
    unfold stepTo at equal
    split at equal
    · cases equal
    · rename_i other
      cases equal
      refine ⟨by simpa using no_slash piece, ?_⟩
      simp only [stays, Bool.not_or, Bool.and_eq_true, Bool.not_eq_true', decide_eq_false_iff_not] at leads
      have unlike : ∀ name : String, String.ofList seg = name → seg = name.toList := by
        rintro name rfl
        simp
      intro listed
      simp only [List.mem_cons, List.not_mem_nil, or_false] at listed
      rcases listed with empty | dot | dots
      · exact leads.1 (unlike _ empty)
      · exact leads.2 (unlike _ dot)
      · exact other (unlike _ dots)

theorem steps_joinText (named : IsName file) (d : Path) :
    steps (d.joinText file).parts = steps d.parts ++ [file.toList] := by
  have single : steps (⟨file⟩ : Path).parts = [file.toList] := by
    rw [parts_of_isName named, steps_singleton (step_of_isName named).1]
  by_cases empty : d.text = ""
  · rw [joinText, join_of_empty _ empty, single]
    obtain ⟨_⟩ := d
    cases empty
    rfl
  · obtain ⟨front, -, pieces, taken, -⟩ := join_parts empty (relative_of_isName named)
    rw [joinText, pieces, steps_append, taken, single]

theorem opening_joinText (named : IsName file) (d : Path) : (d.joinText file).opening = d.opening := by
  by_cases empty : d.text = ""
  · have dot : file.toList ≠ ['.'] := by
      intro equal
      have leads := (step_of_isName named).1
      rw [equal] at leads
      cases leads
    rw [joinText, join_of_empty _ empty, opening, relative_of_isName named, parts_of_isName named]
    obtain ⟨_⟩ := d
    cases empty
    have none : (⟨""⟩ : Path).opening = [] := rfl
    simp [dot, none]
  · exact opening_join empty (relative_of_isName named)

-- A file joined to a directory is a file of that name there exactly when it is a name.
theorem components_joinText_iff (d : Path) (file : String) :
    (d.joinText file).components = d.components ++ [.name file] ↔ IsName file := by
  constructor
  · intro child
    refine isName_of_mem (p := d.joinText file) ?_
    rw [child]
    simp
  · intro named
    rw [components_eq, components_eq, opening_joinText named, steps_joinText named, List.map_append, List.append_assoc,
      List.map_singleton, (step_of_isName named).2]

theorem text_of_join {p q : Path} (empty : (p.join q).text = "") : p.text = "" := by
  unfold join at empty
  split at empty
  · rename_i other
    rw [isAbsolute, empty] at other
    simpa using other
  · split at empty
    · exact (String.append_eq_empty_iff.mp empty).1
    · exact (String.append_eq_empty_iff.mp (String.append_eq_empty_iff.mp empty).1).1

-- A path and those it lies in.
def Under (p above : Path) : Prop := Relation.ReflTransGen (fun lower upper => lower.parent? = some upper) p above

end Path

namespace FileTree

variable {t t' : FileTree} {p : Path}

def goal (t : FileTree) (p : Path) : Location := (steps p.parts).foldl move (t.start p)

theorem goal_of_locate (located : t.locate p = .ok place) : place = t.goal p := by
  rw [locate_eq (text_of_locate located)] at located
  exact walk_ok located

theorem Grows.goal (grown : t.Grows t') (p : Path) : t'.goal p = t.goal p := by
  rw [FileTree.goal, FileTree.goal, FileTree.start, FileTree.start, grown.base]

theorem start_joinText (named : Path.IsName file) (t : FileTree) (d : Path) : t.start (d.joinText file) = t.start d := by
  have same : (d.joinText file).isAbsolute = d.isAbsolute := by
    by_cases empty : d.text = ""
    · rw [Path.joinText, Path.join_of_empty _ empty, Path.relative_of_isName named]
      obtain ⟨_⟩ := d
      cases empty
      rfl
    · exact Path.isAbsolute_join empty (Path.relative_of_isName named)
  rw [FileTree.start, FileTree.start, same]

theorem goal_joinText (named : Path.IsName file) (d : Path) : t.goal (d.joinText file) = t.goal d ++ [file] := by
  have below : file.toList ≠ ['.', '.'] := by
    intro equal
    have leads := (Path.step_of_isName named).2
    rw [equal] at leads
    cases leads
  rw [FileTree.goal, FileTree.goal, Path.steps_joinText named, start_joinText named, List.foldl_append, List.foldl_cons, List.foldl_nil, move, if_neg below,
    String.ofList_toList]

-- A file is put where a path leads, and all else stays.
structure Puts (t t' : FileTree) (p : Path) (content : Content) (place : Location) : Prop where
  grown : t.Grows t'
  located : t'.locate p = .ok place
  before : t.entry? place ≠ some .directory
  here : t'.entry? place = some (.file content)
  elsewhere : other ≠ place → t'.entry? other = t.entry? other

theorem write_puts (written : t.write p content = .ok t') : ∃ place, t.Puts t' p content place := by
  have grown := write_grows written
  obtain ⟨place, located, free, -, rfl⟩ := write_ok_iff.mp written
  have some : place ≠ [] := by
    rintro rfl
    exact free rfl
  refine ⟨place, grown, grown.locate located, free, ?_, fun {other} apart => ?_⟩
  · rw [entry_set t _ some, if_pos rfl]
  · rw [entry_set t _ some, if_neg apart]

theorem readText_of_entry (located : t.locate p = .ok place) (here : t.entry? place = some (.file (.text text))) :
    t.readText p = .ok text := by
  rw [readText, located]
  dsimp only
  rw [here]

-- Idle pieces only ask for directories on the way.
theorem walk_steps_ok (walked : t.walk place segs = .ok there) : t.walk place (steps segs) = .ok there := by
  induction segs generalizing place with
  | nil => exact walked
  | cons seg rest ih =>
    rw [walk_cons] at walked
    cases directory : t.requireDirectory place with
    | error e =>
      rw [directory] at walked
      cases walked
    | ok =>
      rw [directory] at walked
      have later := ih walked
      cases idle : stays seg with
      | true =>
        rw [idle] at later
        simpa [steps, idle] using later
      | false =>
        have same : steps (seg :: rest) = seg :: steps rest := by simp [steps, idle]
        rw [same, walk_cons, directory]
        exact later

-- Directories are put where nothing was, on the way to a path.
structure Opens (t t' : FileTree) (p : Path) : Prop where
  grown : t.Grows t'
  entries (place : Location) : t'.entry? place = t.entry? place ∨
    t.entry? place = none ∧ t'.entry? place = some .directory ∧ ∃ above, p.Under above ∧ t'.locate above = .ok place

theorem Opens.refl (t : FileTree) (p : Path) : t.Opens t p := ⟨.refl t, fun _ => .inl rfl⟩

theorem Opens.trans (one : t.Opens between above) (up : p.Under above) (two : between.Opens t' p) : t.Opens t' p where
  grown := one.grown.trans two.grown
  entries place := by
    rcases two.entries place with kept | ⟨free, made, higher, way, located⟩
    · rw [kept]
      rcases one.entries place with same | ⟨free, made, higher, way, located⟩
      · exact .inl same
      · exact .inr ⟨free, made, higher, up.trans way, two.grown.locate located⟩
    · rcases one.entries place with same | ⟨-, made', -⟩
      · rw [same] at free
        exact .inr ⟨free, made, higher, way, located⟩
      · rw [made'] at free
        cases free

theorem makeDirectory_puts (made : t.makeDirectory p = .ok t') :
    ∃ place, t'.locate p = .ok place ∧ t.entry? place = none ∧ t'.entry? place = some .directory ∧
      ∀ other, other ≠ place → t'.entry? other = t.entry? other := by
  have grown := makeDirectory_grows made
  unfold makeDirectory at made
  split at made
  · cases made
  · rename_i place walked
    split at made
    · cases made
    · rename_i free
      split at made
      · cases made
      · cases made
        have full : p.text ≠ "" := by
          intro empty
          simp [locateSegments, empty] at walked
        have some : place ≠ [] := by
          rintro rfl
          cases free
        have here : FileTree.entry? (t.set place .directory) place = Option.some .directory := by
          rw [entry_set t _ some, if_pos rfl]
        -- Trailing slashes do not count when the directory is made, and ask for it when it is there.
        have located : (t.set place .directory).locate p = .ok place := by
          rw [locateSegments_eq full] at walked
          have taken := walk_steps_ok (walk_kept grown.directory walked)
          rw [steps_dropTrailing] at taken
          rw [locate_eq full]
          exact walk_idle taken (requireDirectory_ok_iff.mpr here)
        refine ⟨place, located, free, here, fun other apart => ?_⟩
        rw [entry_set t _ some, if_neg apart]

theorem makeDirectory_opens (made : t.makeDirectory p = .ok t') : t.Opens t' p := by
  obtain ⟨place, located, free, here, elsewhere⟩ := makeDirectory_puts made
  refine ⟨makeDirectory_grows made, fun other => ?_⟩
  by_cases same : other = place
  · rw [same]
    exact .inr ⟨free, here, p, .refl, located⟩
  · exact .inl (elsewhere other same)

-- In the end the directory itself is made, or it was there.
theorem makeDirectories_last (made : makeDirectories depth t p = .ok t') (full : p.text ≠ "") :
    (∃ between : FileTree, between.makeDirectory p = .ok t') ∨ t'.isDirectory p = true := by
  cases depth with
  | zero => cases made
  | succ depth =>
    unfold makeDirectories at made
    rw [if_neg (by simpa using full)] at made
    split at made
    · rename_i first
      cases made
      exact .inl ⟨t, first⟩
    · split at made
      · cases made
      · split at made
        · cases made
        · rename_i between _
          split at made
          · rename_i last
            cases made
            exact .inl ⟨between, last⟩
          · split at made
            · rename_i directory
              cases made
              exact .inr directory
            · cases made
    · split at made
      · rename_i directory
        cases made
        exact .inr directory
      · cases made

theorem makeDirectories_located (made : makeDirectories depth t p = .ok t') (full : p.text ≠ "") :
    ∃ place, t'.locate p = .ok place ∧ t'.entry? place = some .directory := by
  rcases makeDirectories_last made full with ⟨between, last⟩ | directory
  · obtain ⟨place, located, -, here, -⟩ := makeDirectory_puts last
    exact ⟨place, located, here⟩
  · have found : t'.lookup? p = some .directory := of_decide_eq_true directory
    unfold lookup? at found
    split at found
    · rename_i place located
      exact ⟨place, located, found⟩
    · cases found

theorem makeDirectories_opens (made : makeDirectories depth t p = .ok t') : t.Opens t' p := by
  induction depth generalizing t t' p with
  | zero => cases made
  | succ depth ih =>
    unfold makeDirectories at made
    split at made
    · cases made
      exact .refl t p
    · split at made
      · rename_i one
        cases made
        exact makeDirectory_opens one
      · split at made
        · cases made
        · rename_i above parent
          split at made
          · cases made
          · rename_i between higher
            have up : p.Under above := .single parent
            split at made
            · rename_i last
              cases made
              exact (ih higher).trans up (makeDirectory_opens last)
            · split at made
              · cases made
                exact (ih higher).trans up (.refl t' p)
              · cases made
      · split at made
        · cases made
          exact .refl t p
        · cases made

-- A directory that files can be put in; an empty path stands for the working directory.
def Holds (t : FileTree) (d : Path) : Prop :=
  t.entry? (t.goal d) = some .directory ∧ (d.text ≠ "" → t.locate d = .ok (t.goal d))

theorem Holds.grow (holds : t.Holds d) (grown : t.Grows t') : t'.Holds d := by
  obtain ⟨directory, located⟩ := holds
  rw [Holds, grown.goal]
  exact ⟨grown.directory directory, fun full => grown.locate (located full)⟩

theorem Holds.locate_joinText (holds : t.Holds d) (named : Path.IsName file) :
    t.locate (d.joinText file) = .ok (t.goal d ++ [file]) := by
  obtain ⟨directory, located⟩ := holds
  have step : t.walk (t.goal d) [file.toList] = .ok (move (t.goal d) file.toList) := by
    rw [walk_cons, requireDirectory_ok_iff.mpr directory, (Path.step_of_isName named).1]
    rfl
  suffices way : t.locate (d.joinText file) = .ok (move (t.goal d) file.toList) by
    rw [way, goal_of_locate way, goal_joinText named]
  by_cases empty : d.text = ""
  · have goal : t.goal d = t.start (d.joinText file) := by
      rw [start_joinText named, goal]
      obtain ⟨_⟩ := d
      cases empty
      rfl
    have full : file ≠ "" := by
      rintro rfl
      exact named.2 (by simp)
    rw [goal] at step ⊢
    rw [Path.joinText, Path.join_of_empty _ empty, locate_eq full, Path.parts_of_isName named]
    rw [Path.joinText, Path.join_of_empty _ empty] at step
    exact step
  · obtain ⟨front, -, pieces, taken, -⟩ := Path.join_parts empty (Path.relative_of_isName named)
    have some : (d.joinText file).text ≠ "" := by
      intro none
      have parts : (d.joinText file).parts = [[]] := by rw [Path.parts, none]; rfl
      rw [Path.joinText, pieces, Path.parts_of_isName named] at parts
      have last : some file.toList = some [] := by simpa using congrArg List.getLast? parts
      have empty : file = "" := by simpa using Option.some.inj last
      exact named.2 (by simp [empty])
    have walked := located empty
    rw [locate_eq empty] at walked
    have start : t.start (d.join ⟨file⟩) = t.start d := start_joinText named t d
    rw [locate_eq some, Path.joinText, start, pieces, Path.parts_of_isName named,
      walk_steps _ _ (List.cons_ne_nil _ _), taken, walk_append, walk_steps_ok walked]
    exact step

end FileTree

namespace Generate

variable {plan : Plan} {w w' : Work Library}

theorem written_fileFor (generated : generateAll plan names w = some (outcomes, w'))
    (written : x ∈ outcomes.filterMap (·.written?)) : x.1 ∈ names ∧ x.2 = plan.fileFor x.1 := by
  induction names generalizing w outcomes with
  | nil =>
    cases generated
    cases written
  | cons name rest ih =>
    obtain ⟨result, done, later, attempted, all, rfl⟩ := generateAll_cons_iff.mp generated
    rw [filterMap_cons_append, List.mem_append, Option.mem_toList] at written
    rcases written with first | further
    · obtain ⟨equal, ok⟩ := written?_eq_some.mp first
      dsimp only at equal ok
      rcases generateClass_cases attempted with ⟨e, failed, -⟩ | ⟨-, -, -, wrote, -⟩
      · rw [failed] at ok
        cases ok
      · rw [wrote] at ok
        rw [← equal]
        exact ⟨List.mem_cons_self, (Except.ok.inj ok).symm⟩
    · obtain ⟨member, equal⟩ := ih all further
      exact ⟨List.mem_cons_of_mem _ member, equal⟩

-- Texts are put where the paths of some classes lead, and all else stays.
structure Fills (t t' : FileTree) (written : List (String × Path)) : Prop where
  grown : t.Grows t'
  entries (place : Location) : t'.entry? place = t.entry? place ∨
    ∃ x ∈ written, t'.locate x.2 = .ok place ∧ ∃ text, t'.entry? place = some (.file (.text text))

theorem Fills.trans (one : Fills t between written) (two : Fills between t' further) :
    Fills t t' (written ++ further) where
  grown := one.grown.trans two.grown
  entries place := by
    rcases two.entries place with kept | ⟨x, member, located, text, here⟩
    · rw [kept]
      rcases one.entries place with same | ⟨x, member, located, text, here⟩
      · exact .inl same
      · exact .inr ⟨x, List.mem_append_left _ member, two.grown.locate located, text, here⟩
    · exact .inr ⟨x, List.mem_append_right _ member, located, text, here⟩

theorem generateClass_fills (attempted : generateClass plan name w = some (result, w')) (diagnostics : List Diagnostic) :
    Fills w.state.tree w'.state.tree (Outcome.written? { name, result, diagnostics }).toList := by
  rcases generateClass_cases attempted with ⟨e, rfl, kept⟩ | ⟨lineage, descriptor, -, rfl, wrote⟩
  · rw [kept]
    exact ⟨.refl _, fun _ => .inl rfl⟩
  · obtain ⟨place, puts⟩ := FileTree.write_puts wrote
    refine ⟨puts.grown, fun other => ?_⟩
    by_cases same : other = place
    · rw [same]
      exact .inr ⟨(name, plan.fileFor name), List.mem_singleton_self _, puts.located, _, puts.here⟩
    · exact .inl (puts.elsewhere same)

theorem generateAll_fills (generated : generateAll plan names w = some (outcomes, w')) :
    Fills w.state.tree w'.state.tree (outcomes.filterMap (·.written?)) := by
  induction names generalizing w outcomes with
  | nil =>
    cases generated
    exact ⟨.refl _, fun _ => .inl rfl⟩
  | cons name rest ih =>
    obtain ⟨result, done, later, attempted, all, rfl⟩ := generateAll_cons_iff.mp generated
    rw [filterMap_cons_append]
    have first := generateClass_fills attempted done.diagnostics
    have others := ih all
    exact first.trans others

-- A name that is written is neither ignored nor failed.
theorem written_alone (ready : Prepared settings tree plan start)
    (generated : generateAll plan (plan.selected ignore) start = some (outcomes, w'))
    (written : x ∈ (reportOn plan ignore outcomes w').1.written) :
    x.1 ∉ (reportOn plan ignore outcomes w').1.ignored ∧ ∀ e, (x.1, e) ∉ (reportOn plan ignore outcomes w').1.failed := by
  obtain ⟨_, _, enumerated⟩ := ready.exports
  have distinct : (plan.exports.classes.keys ++ plan.exports.failed.map (·.1)).Nodup := exportedClasses_distinct enumerated
  obtain ⟨-, done, ignored, failed⟩ := assemble_adds plan ignore (plan.exports.classes.keys.filter ignore.contains) outcomes w'
  change x ∈ (assemble plan ignore _ outcomes w').1.written at written
  rw [done] at written
  have selected := (written_fileFor generated written).1
  obtain ⟨listed, free⟩ := List.mem_filter.mp selected
  have free : ignore.contains x.1 = false := by simpa using free
  constructor
  · change x.1 ∉ (assemble plan ignore _ outcomes w').1.ignored
    rw [ignored, excused, ← List.filter_append, List.mem_filter, free]
    simp
  · intro e
    change (x.1, e) ∉ (assemble plan ignore _ outcomes w').1.failed
    rw [failed, List.mem_append]
    rintro (early | late)
    · have inside : x.1 ∈ (blamed ignore plan.exports.failed).map (·.1) := List.mem_map.mpr ⟨_, early, rfl⟩
      rw [blamed_names] at inside
      exact (List.nodup_append.mp distinct).2.2 _ listed _ (List.mem_filter.mp inside).1 rfl
    · obtain ⟨o, member, ok⟩ := List.mem_filterMap.mp written
      obtain ⟨o', member', lost⟩ := List.mem_filterMap.mp late
      obtain ⟨name, result⟩ := written?_eq_some.mp ok
      have names : (outcomes.map Outcome.name).Nodup := by
        rw [generateAll_names generated]
        exact selected_nodup ready ignore
      unfold Outcome.failed? at lost
      split at lost
      · cases lost
      · rename_i failed
        have name' : o'.name = x.1 := congrArg Prod.fst (Option.some.inj lost)
        obtain rfl := List.inj_on_of_nodup_map names member member' (name.trans name'.symm)
        rw [failed] at result
        cases result

end Generate

-- A run that fails before it writes changes nothing. One that ends with a report has changed nothing but this: the
-- output directory and what was missing above it are there, and texts stand where the written paths lead. Nothing
-- is written for a name that is ignored or has failed.
theorem run_changes {settings : Settings} {w w' : Work Library} {result : Except GenerateError GenerateReport}
    (ran : Generate.run settings w = some (result, w')) :
    (∀ e, result = .error e → (∀ path cause, e ≠ .unwritable path cause) → w'.state.tree = w.state.tree) ∧
    ∀ report, result = .ok report → w'.state.tree.workingDirectory = w.state.tree.workingDirectory ∧
      ∀ place, w'.state.tree.entry? place = w.state.tree.entry? place ∨
        (w.state.tree.entry? place = none ∧ w'.state.tree.entry? place = some .directory ∧
          ∃ above, settings.outputPath.Under above ∧ w'.state.tree.locate above = .ok place) ∨
        ∃ name path, (name, path) ∈ report.written ∧ w'.state.tree.locate path = .ok place ∧
          (name ∉ report.ignored ∧ ∀ e, (name, e) ∉ report.failed) ∧
          ∃ text, w'.state.tree.entry? place = some (.file (.text text)) := by
  rcases Generate.run_cases ran with ⟨e, rfl, kept⟩ |
    ⟨plan, ignore, start, outcomes, finished, prepared, generated, rfl, state⟩
  · refine ⟨fun e' equal => ?_, nofun⟩
    cases equal
    exact kept
  · refine ⟨nofun, fun report equal => ?_⟩
    cases equal
    have ready := Generate.prepare_ok prepared
    have opens := FileTree.makeDirectories_opens ready.output
    have fills := Generate.generateAll_fills generated
    rw [state, ← ready.outputDir]
    refine ⟨(opens.grown.trans fills.grown).base.symm, fun place => ?_⟩
    rcases fills.entries place with same | ⟨x, member, located, text, here⟩
    · rw [same]
      rcases opens.entries place with kept | ⟨free, made, above, way, located⟩
      · exact .inl kept
      · exact .inr (.inl ⟨free, made, above, way, fills.grown.locate located⟩)
    · rw [← Generate.reportOn_written plan ignore outcomes finished] at member
      exact .inr (.inr ⟨x.1, x.2, member, located, Generate.written_alone ready generated member, text, here⟩)

def workshop : Work Library :=
  Generate.project
    [ ("package.json", "\x7b\"name\":\"workshop\"\x7d"), (".componentsignore", "[\"Hidden\"]"),
      ("index.ts",
        "export class Widget \x7b\x7d\nexport class Broken extends Missing \x7b\x7d\n" ++
          "export class Hidden \x7b\x7d\nexport class Gadget extends Widget \x7b\x7d\n") ]

def workshopSettings : Settings := { Settings.defaults with outputDir := ⟨"out/atlas"⟩ }

theorem workshop_runs : ∃ report w', Generate.run workshopSettings workshop = some (.ok report, w') ∧
    report.written = [("Widget", ⟨"./out/atlas/Widget.jsonld"⟩), ("Gadget", ⟨"./out/atlas/Gadget.jsonld"⟩)] ∧
    report.ignored = ["Hidden"] ∧ report.failed.map (·.1) = ["Broken"] := by
  have observed : (Generate.runBy (.within 20 Library.provider) workshopSettings workshop).map
      (·.1.toOption.map fun report => (report.written, report.ignored, report.failed.map (·.1))) =
      some (some ([("Widget", ⟨"./out/atlas/Widget.jsonld"⟩), ("Gadget", ⟨"./out/atlas/Gadget.jsonld"⟩)], ["Hidden"],
        ["Broken"])) := by
    decide +kernel
  obtain ⟨⟨result, w'⟩, ran, seen⟩ := Option.map_eq_some_iff.mp observed
  cases result with
  | error e => cases seen
  | ok report =>
    obtain ⟨written, ignored, failed⟩ := Prod.mk.inj (Option.some.inj seen) |>.imp id Prod.mk.inj
    exact ⟨report, w', Generate.run_within 20 ran, written, ignored, failed⟩

theorem run_changes_workshop : ∃ report w', Generate.run workshopSettings workshop = some (.ok report, w') ∧
    report.written.map (·.1) = ["Widget", "Gadget"] ∧ report.ignored = ["Hidden"] ∧
    report.failed.map (·.1) = ["Broken"] ∧
    ∀ place, w'.state.tree.entry? place = workshop.state.tree.entry? place ∨
      (workshop.state.tree.entry? place = none ∧ w'.state.tree.entry? place = some .directory ∧
        ∃ above, workshopSettings.outputPath.Under above ∧ w'.state.tree.locate above = .ok place) ∨
      ∃ name path, (name, path) ∈ report.written ∧ w'.state.tree.locate path = .ok place ∧
        (name ∉ report.ignored ∧ ∀ e, (name, e) ∉ report.failed) ∧
        ∃ text, w'.state.tree.entry? place = some (.file (.text text)) := by
  obtain ⟨report, w', ran, written, ignored, failed⟩ := workshop_runs
  exact ⟨report, w', ran, by rw [written]; rfl, ignored, failed, ((run_changes ran).2 report rfl).2⟩

namespace Generate

variable {t : FileTree} {plan : Plan} {w w' : Work Library}

theorem locate_fileFor (named : Path.IsName (name ++ plan.extension)) (located : t.locate (plan.fileFor name) = .ok place) :
    place = t.goal plan.outputDir ++ [name ++ plan.extension] := by
  rw [FileTree.goal_of_locate located, Plan.fileFor, FileTree.goal_joinText named]

theorem name_of_place (named : Path.IsName (name ++ plan.extension)) (named' : Path.IsName (other ++ plan.extension))
    (located : t.locate (plan.fileFor name) = .ok place) (located' : t.locate (plan.fileFor other) = .ok place) :
    name = other := by
  have equal := (locate_fileFor named located).symm.trans (locate_fileFor named' located')
  exact String.append_left_inj (t := plan.extension) |>.mp (by simpa using equal)

-- Each written file holds what was described, as its turn came, for the last class whose path leads there.
theorem generateAll_last (generated : generateAll plan names w = some (outcomes, w'))
    (written : x ∈ outcomes.filterMap (·.written?)) :
    ∃ place, w'.state.tree.locate x.2 = .ok place ∧ ∃ y ∈ outcomes.filterMap (·.written?),
      w'.state.tree.locate y.2 = .ok place ∧ ∃ reached lineage descriptor, Turn plan names w y.1 reached ∧
        Describes plan y.1 reached lineage descriptor ∧ w'.state.tree.readText x.2 = .ok descriptor.toJson.pretty := by
  induction names generalizing w outcomes x with
  | nil =>
    cases generated
    cases written
  | cons name rest ih =>
    have paths := fun {y} => written_fileFor (x := y) generated
    obtain ⟨result, done, later, attempted, all, rfl⟩ := generateAll_cons_iff.mp generated
    rw [filterMap_cons_append] at written ⊢
    rcases List.mem_append.mp written with first | further
    · obtain ⟨own, file⟩ := x
      obtain ⟨equal, ok⟩ := written?_eq_some.mp (Option.mem_toList.mp first)
      dsimp only at equal ok
      subst equal
      obtain rfl : file = plan.fileFor name := (paths (by rw [filterMap_cons_append]; exact written)).2
      rcases generateClass_cases attempted with ⟨e, rfl, -⟩ | ⟨lineage, descriptor, describes, -, wrote⟩
      · cases ok
      · obtain ⟨place, puts⟩ := FileTree.write_puts wrote
        have fills := generateAll_fills all
        have located := fills.grown.locate puts.located
        refine ⟨place, located, ?_⟩
        rcases fills.entries place with kept | ⟨y, member, located', -⟩
        · exact ⟨_, written, located, _, lineage, descriptor, .first plan name rest w, describes,
            FileTree.readText_of_entry located (kept.trans puts.here)⟩
        · obtain ⟨place', there, z, member', located'', reached, lineage, descriptor, turn, describes, holds⟩ := ih all member
          obtain rfl : place' = place := Except.ok.inj (there.symm.trans located')
          refine ⟨z, List.mem_append_right _ member', located'', reached, lineage, descriptor, turn.later attempted,
            describes, ?_⟩
          rw [← holds, FileTree.readText, FileTree.readText, located, there]
    · obtain ⟨place, located, z, member, located', reached, lineage, descriptor, turn, describes, holds⟩ := ih all further
      exact ⟨place, located, z, List.mem_append_right _ member, located', reached, lineage, descriptor,
        turn.later attempted, describes, holds⟩

-- That is its own class, if all have the names of files: a class that lies in the same place has the same name.
theorem generateAll_holds (generated : generateAll plan names w = some (outcomes, w'))
    (named : ∀ x ∈ outcomes.filterMap (·.written?), Path.IsName (x.1 ++ plan.extension))
    (written : x ∈ outcomes.filterMap (·.written?)) :
    ∃ reached lineage descriptor, Turn plan names w x.1 reached ∧ Describes plan x.1 reached lineage descriptor ∧
      w'.state.tree.readText x.2 = .ok descriptor.toJson.pretty := by
  obtain ⟨place, located, y, member, located', describes⟩ := generateAll_last generated written
  rw [(written_fileFor generated written).2] at located
  rw [(written_fileFor generated member).2] at located'
  rw [name_of_place (named x written) (named y member) located located']
  exact describes

end Generate

-- What a run writes for a class is a file of that name in the output directory exactly when the name, with the
-- extension, is the name of a file. If all are, then no two classes share a file and each file holds the descriptor
-- of its own class.
theorem run_writes_apart {settings : Settings} {w w' : Work Library} {report : GenerateReport}
    (ran : Generate.run settings w = some (.ok report, w')) :
    (∀ name path, (name, path) ∈ report.written →
      (path.components = settings.outputPath.components ++ [.name (name ++ settings.extension)] ↔
        Path.IsName (name ++ settings.extension))) ∧
    ((∀ name ∈ report.written.map (·.1), Path.IsName (name ++ settings.extension)) →
      report.written.Pairwise (fun x y => ¬ x.2.Same y.2) ∧
      ∃ plan ignore start, Generate.prepare settings w = some (.ok (plan, ignore), start) ∧
        ∀ name path, (name, path) ∈ report.written → ∃ reached lineage descriptor,
          Generate.Turn plan (plan.selected ignore) start name reached ∧
          Generate.Describes plan name reached lineage descriptor ∧ descriptor.element = name ∧
          w'.state.tree.readText path = .ok descriptor.toJson.pretty) := by
  obtain ⟨plan, ignore, start, outcomes, finished, prepared, generated, rfl, state⟩ := Generate.run_ok ran
  have ready := Generate.prepare_ok prepared
  rw [Generate.reportOn_written, ← ready.outputDir, ← ready.extension, state]
  have paths := fun {y} => Generate.written_fileFor (x := y) generated
  refine ⟨fun name path member => ?_, fun named => ⟨?_, plan, ignore, start, prepared, fun name path member => ?_⟩⟩
  · obtain ⟨-, rfl⟩ : _ ∧ path = plan.fileFor name := paths member
    exact Path.components_joinText_iff _ _
  · have distinct : ((outcomes.filterMap (·.written?)).map (·.1)).Nodup := by
      refine (Generate.written_sublist outcomes).nodup ?_
      rw [Generate.generateAll_names generated]
      exact Generate.selected_nodup ready ignore
    refine (List.pairwise_map.mp distinct).imp_of_mem fun {x y} one two apart same => apart ?_
    have child : ∀ z ∈ outcomes.filterMap (·.written?),
        z.2.components = plan.outputDir.components ++ [.name (z.1 ++ plan.extension)] := by
      intro z member
      rw [(paths member).2]
      exact (Path.components_joinText_iff _ _).mpr (named z.1 (List.mem_map_of_mem member))
    rw [Path.Same, child x one, child y two] at same
    have equal : x.1 ++ plan.extension = y.1 ++ plan.extension := by simpa using same
    exact (String.append_left_inj _).mp equal
  · obtain ⟨reached, lineage, descriptor, turn, describes, holds⟩ := Generate.generateAll_holds generated
      (fun x member => named x.1 (List.mem_map_of_mem member)) member
    exact ⟨reached, lineage, descriptor, turn, describes, Generate.Describes.element describes, holds⟩

theorem run_writes_apart_workshop : ∃ report w', Generate.run workshopSettings workshop = some (.ok report, w') ∧
    report.written = [("Widget", ⟨"./out/atlas/Widget.jsonld"⟩), ("Gadget", ⟨"./out/atlas/Gadget.jsonld"⟩)] ∧
    (∀ name ∈ report.written.map (·.1), Path.IsName (name ++ workshopSettings.extension)) ∧
    report.written.Pairwise (fun x y => ¬ x.2.Same y.2) ∧
    ∀ name path, (name, path) ∈ report.written → ∃ descriptor : Descriptor, descriptor.element = name ∧
      w'.state.tree.readText path = .ok descriptor.toJson.pretty := by
  obtain ⟨report, w', ran, written, -⟩ := workshop_runs
  have named : ∀ name ∈ report.written.map (·.1), Path.IsName (name ++ workshopSettings.extension) := by
    rw [written]
    decide +kernel
  obtain ⟨apart, plan, ignore, start, -, holds⟩ := (run_writes_apart ran).2 named
  refine ⟨report, w', ran, written, named, apart, fun name path member => ?_⟩
  obtain ⟨_, _, descriptor, -, -, element, text⟩ := holds name path member
  exact ⟨descriptor, element, text⟩

-- Two classes under names that lead to one file, and one of them under a name that leads out of the directory.
def aliases : Work Library :=
  Generate.project
    [ ("package.json", "\x7b\"name\":\"aliases\"\x7d"),
      ("index.ts", "export \x7b A as \"x\", B as \"./x\", A as \"../y\" \x7d from './lib';\n"),
      ("lib.ts", "export class A \x7b\x7d\nexport abstract class B \x7b\x7d\n") ]

-- The second name has replaced the file of the first, and the third is outside.
theorem run_writes_over : '/' ∉ Settings.defaults.extension.toList ∧
    ∃ report w', Generate.run .defaults aliases = some (.ok report, w') ∧
      report.written = [("x", ⟨"./components/x.jsonld"⟩), ("./x", ⟨"./components/./x.jsonld"⟩),
        ("../y", ⟨"./components/../y.jsonld"⟩)] ∧
      Path.Same ⟨"./components/x.jsonld"⟩ ⟨"./components/./x.jsonld"⟩ ∧
      w'.state.tree.readText ⟨"./components/x.jsonld"⟩ =
        .ok "\x7b\n  \"@id\": \"aliases:./x\",\n  \"requireElement\": \"./x\",\n  \"@type\": \"AbstractClass\"\n\x7d" ∧
      ∀ file, Path.components ⟨"./components/../y.jsonld"⟩ ≠ Settings.defaults.outputPath.components ++ [.name file] := by
  have observed : (Generate.runBy (.within 20 Library.provider) .defaults aliases).map
      (fun r => (r.1.toOption.map (·.written), (r.2.state.tree.readText ⟨"./components/x.jsonld"⟩).toOption)) =
      some (some [("x", ⟨"./components/x.jsonld"⟩), ("./x", ⟨"./components/./x.jsonld"⟩),
        ("../y", ⟨"./components/../y.jsonld"⟩)],
        some "\x7b\n  \"@id\": \"aliases:./x\",\n  \"requireElement\": \"./x\",\n  \"@type\": \"AbstractClass\"\n\x7d") := by
    decide +kernel
  obtain ⟨⟨result, w'⟩, ran, seen⟩ := Option.map_eq_some_iff.mp observed
  obtain ⟨written, text⟩ := Prod.mk.inj seen
  have outside : Path.components ⟨"./components/../y.jsonld"⟩ =
      Settings.defaults.outputPath.components ++ [.parent, .name "y.jsonld"] := by decide +kernel
  cases result with
  | error e => cases written
  | ok report =>
    refine ⟨by decide +kernel, report, w', Generate.run_within 20 ran, Option.some.inj written, by decide +kernel, ?_, ?_⟩
    · dsimp only at text
      cases read : w'.state.tree.readText ⟨"./components/x.jsonld"⟩ with
      | error e =>
        rw [read] at text
        cases text
      | ok found =>
        rw [read] at text
        rw [Option.some.inj text]
    · intro file
      rw [outside]
      simp

end ComponentAtlas
