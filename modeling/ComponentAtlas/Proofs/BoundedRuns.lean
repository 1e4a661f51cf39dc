import ComponentAtlas.Proofs.EnumerationRules
import ComponentAtlas.Proofs.RunStages

namespace ComponentAtlas
open Outline

def Completes {α : Type} (bounded whole : Option α) : Prop := ∀ r, bounded = some r → whole = some r

namespace Completes

variable {α β : Type} {bounded whole : Option α} {next next' : α → Option β}

theorem refl (whole : Option α) : Completes whole whole := fun _ => id

theorem bind (first : Completes bounded whole) (rest : ∀ a, Completes (next a) (next' a)) :
    Completes (bounded.bind next) (whole.bind next') := by
  intro r ended
  obtain ⟨a, one, two⟩ := Option.bind_eq_some_iff.mp ended
  rw [first a one, Option.bind_some]
  exact rest a r two

theorem map (first : Completes bounded whole) (f : α → β) : Completes (bounded.map f) (whole.map f) := by
  rw [Option.map_eq_bind, Option.map_eq_bind]
  exact first.bind fun _ => .refl _

end Completes

variable {σ : Type}

namespace Search

variable {p : Provider σ} {request : Request}

def runWithin (p : Provider σ) (request : Request) : (bound : Nat) → Task → Search σ → Option (Result σ)
  | 0, _, _ => none
  | bound + 1, .look name path, s =>
    match s.work.openFile p path with
    | (.error e, work) => some (.error e, { s with work })
    | (.ok (file, index), work) =>
      let s := { s with work }
      if Hop.of file.path name ∈ s.visited then
        some (.error (.symbolNotFound name file.path),
          s.report .revisitedReference file.path s!"'{name}' was already visited in this resolution")
      else runWithin p request bound (.expand { file, index, name }) (s.enter name file.path)
  | bound + 1, .expand x, s =>
    match x.declaration? request.kinds with
    | some declaration => some (.ok (request.symbol x.name x.file.path declaration), s)
    | none =>
      match x.binding? with
      | some binding => runWithin p request bound (.follow binding.name binding.target x.file.path) s
      | none => runWithin p request bound (.scan x x.index.wildcards) s
  | bound + 1, .follow name (.file path) _, s => runWithin p request bound (.look name path) s
  | _ + 1, .follow name (.package package) referrer, s =>
    some (.error (.symbolNotFound name referrer),
      s.report .packageTarget referrer s!"'{name}' comes from package '{package}', which is not followed")
  | _ + 1, .scan x [], s => some (scanned x (none, s))
  | bound + 1, .scan x (target :: rest), s =>
    (runWithin p request bound (.follow x.name target x.file.path) s).bind fun
      | (.ok symbol, s) => some (.ok symbol, s)
      | (.error e, s) => runWithin p request bound (.scan x rest) (passOver x.name x.file.path e s)

theorem runWithin_completes (bound : Nat) (task : Task) (s : Search σ) :
    Completes (runWithin p request bound task s) (run p request task s) := by
  induction bound generalizing task s with
  | zero => exact nofun
  | succ bound ih =>
    intro r ended
    cases task with
    | look name path =>
      rw [runWithin] at ended
      rw [run, lookup]
      generalize s.work.openFile p path = opened at ended ⊢
      obtain ⟨_ | ⟨file, index⟩, work⟩ := opened
      · exact ended
      · dsimp only at ended ⊢
        by_cases seen : Hop.of file.path name ∈ s.visited
        · rw [if_pos seen] at ended ⊢
          exact ended
        · rw [if_neg seen] at ended ⊢
          exact ih _ _ r ended
    | expand x =>
      rw [runWithin, Place.declaration?, Place.binding?] at ended
      rw [run, expand]
      cases here : x.index.local? request.kinds x.name with
      | some declaration =>
        rw [here] at ended
        exact ended
      | none =>
        rw [here] at ended
        dsimp only at ended ⊢
        cases binds : (x.index.imports.get? x.name).or (x.index.reexports.get? x.name) with
        | some binding =>
          rw [binds] at ended
          exact ih _ _ r ended
        | none =>
          rw [binds] at ended
          obtain ⟨found, first, rfl⟩ := Option.map_eq_some_iff.mp (ih _ _ r ended)
          rw [first]
          obtain ⟨_ | symbol, s'⟩ := found <;> rfl
    | follow name target referrer =>
      cases target with
      | file path =>
        rw [run, follow]
        exact ih _ _ r ended
      | package package =>
        rw [run, follow]
        exact ended
    | scan x targets =>
      cases targets with
      | nil =>
        rw [run, firstOf]
        exact ended
      | cons target rest =>
        rw [runWithin] at ended
        obtain ⟨⟨result, s'⟩, one, ended⟩ := Option.bind_eq_some_iff.mp ended
        have followed : follow p request x.name target x.file.path s = some (result, s') := ih _ _ _ one
        rw [run, firstOf, followed]
        cases result with
        | ok symbol => exact ended
        | error e => exact ih _ _ r ended

end Search

def resolveWithin (bound : Nat) (p : Provider σ) (kinds : KindFilter) (reference : Reference) (w : Work σ) :
    Option (Except ResolveError Symbol × Work σ) :=
  (Search.runWithin p { kinds, origin := reference } bound (.look reference.name reference.file)
    { work := w, visited := [] }).bind fun (result, s) => some (result, s.work)

theorem resolveWithin_completes (bound : Nat) (p : Provider σ) (kinds : KindFilter) (reference : Reference) (w : Work σ) :
    Completes (resolveWithin bound p kinds reference w) (resolve p kinds reference w) :=
  (Search.runWithin_completes bound _ _).bind fun _ => .refl _

namespace Work
open Link

variable {p : Provider σ}

def resolveHeritageWithin (bound : Nat) (p : Provider σ) (child : Reference) (edge : Edge) (w : Work σ) :
    Option (Link.Result σ Symbol) :=
  match edge.heritage.form with
  | .unsupported kind =>
    some (.error (unsupported child edge.heritage s!"only identifiers are supported, found {kind}"), w)
  | .identifier name =>
    resolveWithin bound p (.ofInterfaces edge.interfaces) { Reference.of name child.file with package := child.package } w

theorem resolveHeritageWithin_completes (bound : Nat) (child : Reference) (edge : Edge) (w : Work σ) :
    Completes (resolveHeritageWithin bound p child edge w) (resolveHeritage p child edge w) := by
  unfold resolveHeritageWithin resolveHeritage
  cases edge.heritage.form with
  | unsupported kind => exact .refl _
  | identifier name => exact resolveWithin_completes bound p _ _ w

def linkAllWithin (bound : Nat) (p : Provider σ) (link : List Hop → Symbol → Work σ → Option (Link.Result σ Lineage))
    (ancestry : List Hop) (child : Symbol) : List Edge → Work σ → Option (Link.Result σ (List Lineage))
  | [], w => some (.ok [], w)
  | edge :: rest, w =>
    (resolveHeritageWithin bound p child.reference edge w).bind fun
      | (.error e, w) => some (.error e, w)
      | (.ok parent, w) => (link ancestry parent w).bind fun
        | (.error e, w) => some (.error e, w)
        | (.ok lineage, w) =>
          match admitted child edge.heritage parent with
          | .error e => some (.error e, w)
          | .ok () => (linkAllWithin bound p link ancestry child rest w).bind fun
            | (.error e, w) => some (.error e, w)
            | (.ok parents, w) => some (.ok (lineage :: parents), w)

theorem linkAllWithin_completes (bound : Nat)
    {link : List Hop → Symbol → Work σ → Option (Link.Result σ Lineage)}
    (links : ∀ ancestry symbol w, Completes (link ancestry symbol w) (Work.link p ancestry symbol w)) (ancestry : List Hop)
    (child : Symbol) (edges : List Edge) (w : Work σ) :
    Completes (linkAllWithin bound p link ancestry child edges w) (linkAll p ancestry child edges w) := by
  induction edges generalizing w with
  | nil =>
    rw [linkAll]
    exact .refl _
  | cons edge rest ih =>
    intro r ended
    rw [linkAllWithin] at ended
    rw [linkAll, linkParent]
    obtain ⟨⟨result, w'⟩, resolved, ended⟩ := Option.bind_eq_some_iff.mp ended
    rw [resolveHeritageWithin_completes _ _ _ _ _ resolved]
    cases result with
    | error e => exact ended
    | ok parent =>
      obtain ⟨⟨result, w''⟩, linked, ended⟩ := Option.bind_eq_some_iff.mp ended
      simp only [Option.bind_eq_bind, Option.bind_some, links _ _ _ _ linked]
      cases result with
      | error e => exact ended
      | ok lineage =>
        dsimp only at ended ⊢
        cases passed : admitted child edge.heritage parent with
        | error e =>
          rw [passed] at ended
          exact ended
        | ok =>
          rw [passed] at ended
          obtain ⟨⟨result, last⟩, all, ended⟩ := Option.bind_eq_some_iff.mp ended
          simp only [Option.bind_some, ih _ _ all]
          cases result <;> exact ended

def linkWithin (p : Provider σ) : (bound : Nat) → List Hop → Symbol → Work σ → Option (Link.Result σ Lineage)
  | 0, _, _, _ => none
  | bound + 1, ancestry, symbol, w =>
    if symbol.hop ∈ ancestry then some (.error (cyclic ancestry symbol), w)
    else
      (linkAllWithin bound p (linkWithin p bound) (ancestry ++ [symbol.hop]) symbol (edges symbol.declaration) w).bind fun
        | (.error e, w) => some (.error e, w)
        | (.ok parents, w) =>
          some (.ok (.ofParents symbol parents), noteLinked (.ofParents symbol parents) w)

theorem linkWithin_completes (bound : Nat) (ancestry : List Hop) (symbol : Symbol) (w : Work σ) :
    Completes (linkWithin p bound ancestry symbol w) (link p ancestry symbol w) := by
  induction bound generalizing ancestry symbol w with
  | zero => exact nofun
  | succ bound ih =>
    rw [linkWithin, link]
    split
    · exact .refl _
    · refine (linkAllWithin_completes bound ih _ _ _ _).bind ?_
      rintro ⟨_ | parents, w⟩ <;> exact .refl _

end Work

namespace Enumeration

variable {p : Provider σ}

def addReexportWithin (bound : Nat) (p : Provider σ) (path : Path) (s : Enumeration σ) (name : String) :
    Option (Enumeration σ) :=
  if s.found.isTaken name then some s
  else
    (resolveWithin bound p .classes (.of name path) s.work).bind fun
      | (.ok symbol, work) => some { s with work, found := settle s.found name path (.ok symbol) }
      | (.error e, work) =>
        if e.isSymbolNotFound then some { s with work }
        else
          some
            { s with
              work := work.say .warn .exports s!"[exports] re-export '{name}' in {path.text} failed: {e.message}"
              found := s.found.fail name e }

theorem addReexportWithin_completes (bound : Nat) (path : Path) (s : Enumeration σ) (name : String) :
    Completes (addReexportWithin bound p path s name) (addReexport p path s name) := by
  unfold addReexportWithin addReexport
  split
  · exact .refl _
  · refine (resolveWithin_completes bound p _ _ _).bind ?_
    rintro ⟨_ | symbol, work⟩ <;> exact .refl _

theorem addReexportsWithin_completes (bound : Nat) (path : Path) (names : List String) (s : Enumeration σ) :
    Completes (names.foldlM (addReexportWithin bound p path) s) (names.foldlM (addReexport p path) s) := by
  induction names generalizing s with
  | nil => exact .refl _
  | cons name rest ih =>
    rw [List.foldlM_cons, List.foldlM_cons]
    exact (addReexportWithin_completes bound path s name).bind ih

def runWithin (p : Provider σ) : (bound : Nat) → Task → Enumeration σ → Option (Enumeration σ)
  | 0, _, _ => none
  | bound + 1, .file path index, s =>
    if s.visited.contains path.components then some s
    else
      (index.reexports.keys.foldlM (addReexportWithin bound p path)
        { s with
          visited := path.components :: s.visited
          found := addClasses path index.exportedClasses.keys s.found }).bind
        (runWithin p bound (.targets path index.wildcards))
  | _ + 1, .targets _ [], s => some s
  | bound + 1, .targets path (.file target :: rest), s =>
    (runWithin p bound (.visit target) s).bind (runWithin p bound (.targets path rest))
  | bound + 1, .targets path (.package package :: rest), s =>
    runWithin p bound (.targets path rest) (passPackage path package s)
  | bound + 1, .visit path, s =>
    match s.work.openFile p path with
    | (.error e, work) =>
      some { s with work := work.report .suppressedWildcardTarget path s!"wildcard target skipped: {e.message}" }
    | (.ok (file, index), work) => runWithin p bound (.file file.path index) { s with work }

theorem runWithin_completes (bound : Nat) (task : Task) (s : Enumeration σ) :
    Completes (runWithin p bound task s) (run p task s) := by
  induction bound generalizing task s with
  | zero => exact nofun
  | succ bound ih =>
    cases task with
    | file path index =>
      rw [runWithin, run, addFile]
      by_cases seen : path.components ∈ s.visited
      · rw [if_pos (List.contains_iff_mem.mpr seen), if_pos seen]
        exact .refl _
      · rw [if_neg (mt List.contains_iff_mem.mp seen), if_neg seen]
        exact (addReexportsWithin_completes bound path _ _).bind (ih _)
    | targets path targets =>
      cases targets with
      | nil =>
        rw [run, addTargets]
        exact .refl _
      | cons target rest =>
        cases target with
        | file target =>
          rw [runWithin, run, addTargets]
          exact (ih _ _).bind (ih _)
        | package package =>
          rw [runWithin, run, addTargets]
          exact ih _ _
    | visit path =>
      rw [runWithin, run, visit]
      obtain ⟨_ | ⟨file, index⟩, work⟩ := s.work.openFile p path
      · exact .refl _
      · exact ih _ _

end Enumeration

def exportedClassesWithin (bound : Nat) (p : Provider σ) (entry : Path) (w : Work σ) :
    Option (Except ResolveError ExportList × Work σ) :=
  match w.openFile p entry with
  | (.error e, work) => some (.error e, work)
  | (.ok (file, index), work) =>
    (Enumeration.runWithin p bound (.file file.path index) { work, visited := [], found := .empty }).bind fun s =>
      some (.ok s.found, s.work)

theorem exportedClassesWithin_completes (bound : Nat) (p : Provider σ) (entry : Path) (w : Work σ) :
    Completes (exportedClassesWithin bound p entry w) (exportedClasses p entry w) := by
  unfold exportedClassesWithin exportedClasses
  obtain ⟨_ | ⟨file, index⟩, work⟩ := w.openFile p entry
  · exact .refl _
  · exact (Enumeration.runWithin_completes bound _ _).bind fun _ => .refl _

namespace Generate

structure Means.Completes (means means' : Means σ) : Prop where
  exports : ∀ entry w, ComponentAtlas.Completes (means.exports entry w) (means'.exports entry w)
  resolve : ∀ reference w, ComponentAtlas.Completes (means.resolve reference w) (means'.resolve reference w)
  link : ∀ symbol w, ComponentAtlas.Completes (means.link symbol w) (means'.link symbol w)

def Means.within (bound : Nat) (p : Provider σ) : Means σ :=
  { exports := exportedClassesWithin bound p
    resolve := resolveWithin bound p .classes
    link := Work.linkWithin p bound [] }

theorem Means.within_completes (bound : Nat) (p : Provider σ) : (Means.within bound p).Completes (.of p) where
  exports := exportedClassesWithin_completes bound p
  resolve := resolveWithin_completes bound p .classes
  link := Work.linkWithin_completes bound []

section

variable {means means' : Means σ}

theorem lineageBy_completes (completes : means.Completes means') (plan : Plan) (name : String) (w : Work σ) :
    Completes (lineageBy means plan name w) (lineageBy means' plan name w) := by
  refine (completes.resolve _ _).bind ?_
  rintro ⟨_ | symbol, w⟩
  · exact .refl _
  · exact completes.link symbol w

theorem describeBy_completes (completes : means.Completes means') (plan : Plan) (name : String) (w : Work σ) :
    Completes (describeBy means plan name w) (describeBy means' plan name w) :=
  (lineageBy_completes completes plan name w).map _

end

variable {means means' : Means Library}

theorem generateClassBy_completes (completes : means.Completes means') (plan : Plan) (name : String) (w : Work Library) :
    Completes (generateClassBy means plan name w) (generateClassBy means' plan name w) :=
  (lineageBy_completes completes plan name w).map _

theorem generateAllBy_completes (completes : means.Completes means') (plan : Plan) (names : List String)
    (w : Work Library) : Completes (generateAllBy means plan names w) (generateAllBy means' plan names w) := by
  induction names generalizing w with
  | nil => exact .refl _
  | cons name rest ih =>
    exact (generateClassBy_completes completes plan name _).bind fun _ => (ih _).bind fun _ => .refl _

theorem prepareBy_completes (completes : means.Completes means') (settings : Settings) (w : Work Library) :
    Completes (prepareBy means settings w) (prepareBy means' settings w) := by
  unfold prepareBy
  cases Package.load w.state.tree settings.packageDir with
  | error e => exact .refl _
  | ok package =>
    dsimp only
    obtain ⟨_ | ignore, log⟩ := IgnoreList.load w.state.tree settings.ignorePath
    · exact .refl _
    · dsimp only
      cases findEntry w.state.tree package settings.sourceDir with
      | error e => exact .refl _
      | ok entry => exact (completes.exports _ _).map _

theorem runBy_completes (completes : means.Completes means') (settings : Settings) (w : Work Library) :
    Completes (runBy means settings w) (runBy means' settings w) := by
  refine (prepareBy_completes completes settings w).bind ?_
  rintro ⟨_ | ⟨plan, ignore⟩, w⟩
  · exact .refl _
  · exact (generateAllBy_completes completes plan _ w).map _

theorem prepare_within (bound : Nat) {settings : Settings} {w : Work Library} {r : Result (Plan × IgnoreList)}
    (prepared : prepareBy (.within bound Library.provider) settings w = some r) : prepare settings w = some r :=
  prepareBy_completes (Means.within_completes bound _) settings w r prepared

theorem generateAll_within (bound : Nat) {plan : Plan} {w : Work Library} {r : List Outcome × Work Library}
    (generated : generateAllBy (.within bound Library.provider) plan names w = some r) : generateAll plan names w = some r := by
  rw [generateAll_eq]
  exact generateAllBy_completes (Means.within_completes bound _) plan names w r generated

theorem run_within (bound : Nat) {settings : Settings} {w : Work Library} {r : Result GenerateReport}
    (ran : runBy (.within bound Library.provider) settings w = some r) : run settings w = some r := by
  rw [run_eq]
  exact runBy_completes (Means.within_completes bound _) settings w r ran

def project (texts : List (String × String)) : Work Library :=
  .start (.ofTree
    { workingDirectory := ["project"]
      entries := (["project"], .directory) :: texts.map fun (file, text) => (["project", file], .file (.text text)) })

end Generate

theorem readText_dotted (t : FileTree) : t.readText ⟨"./index.ts"⟩ = t.readText ⟨"index.ts"⟩ := by
  have located : t.locate ⟨"./index.ts"⟩ = t.locate ⟨"index.ts"⟩ := by
    rw [FileTree.locate_eq (by decide), FileTree.locate_eq (by decide)]
    exact FileTree.walk_steps t.workingDirectory [['.']] (List.cons_ne_nil "index.ts".toList [])
  rw [FileTree.readText, FileTree.readText, located]

-- The entry exports a class, and again under another name by way of its own path; another module takes it from there.
def reentrant : Work Library :=
  Generate.project
    [ ("package.json", "\x7b\"name\":\"pkg\"\x7d"),
      ("index.ts",
        "export class Widget \x7b\x7d\nexport \x7b Widget as Alias \x7d from './index';\n" ++
          "export \x7b Derived \x7d from './derived';\n"),
      ("derived.ts", "import \x7b Widget \x7d from './index';\nexport class Derived extends Widget \x7b\x7d\n") ]

def derivedText (parent : String) : String :=
  "\x7b\n  \"@id\": \"pkg:Derived\",\n  \"requireElement\": \"Derived\",\n  \"@type\": \"Class\",\n  \"extends\": [\n    \"" ++
    parent ++ "\"\n  ]\n\x7d"

def reentrantRun (dir file : String) : Option (Option (List String) × Option String) :=
  (Generate.runBy (.within 20 Library.provider) { Settings.defaults with packageDir := ⟨dir⟩ } reentrant).map fun r =>
    (r.1.toOption.map fun report => report.written.map (·.1), (r.2.state.tree.readText ⟨file⟩).toOption)

theorem run_of_reentrantRun (observed : reentrantRun dir file = some (some names, some text)) :
    ∃ report w, Generate.run { Settings.defaults with packageDir := ⟨dir⟩ } reentrant = some (.ok report, w) ∧
      report.written.map (·.1) = names ∧ w.state.tree.readText ⟨file⟩ = .ok text := by
  obtain ⟨⟨result, w⟩, ran, seen⟩ := Option.map_eq_some_iff.mp observed
  obtain ⟨written, read⟩ := Prod.mk.inj seen
  cases result with
  | error e => cases written
  | ok report =>
    refine ⟨report, w, Generate.run_within 20 ran, Option.some.inj written, ?_⟩
    dsimp only at read
    cases here : w.state.tree.readText ⟨file⟩ with
    | error e =>
      rw [here] at read
      cases read
    | ok found =>
      rw [here] at read
      rw [Option.some.inj read]

theorem reentrantRun_dotted : reentrantRun "." "./components/Derived.jsonld" =
    some (some ["Widget", "Alias", "Derived"], some (derivedText "pkg:Alias")) := by
  decide +kernel

theorem reentrantRun_plain : reentrantRun "" "components/Derived.jsonld" =
    some (some ["Widget", "Alias", "Derived"], some (derivedText "pkg:Widget")) := by
  decide +kernel

-- One directory under two spellings, one class, two parents.
theorem run_dotted : ∃ report w report' w', (∀ t : FileTree, t.readText ⟨"./index.ts"⟩ = t.readText ⟨"index.ts"⟩) ∧
    Generate.run { Settings.defaults with packageDir := ⟨"."⟩ } reentrant = some (.ok report, w) ∧
    Generate.run { Settings.defaults with packageDir := ⟨""⟩ } reentrant = some (.ok report', w') ∧
    report.written.map (·.1) = ["Widget", "Alias", "Derived"] ∧
    report'.written.map (·.1) = ["Widget", "Alias", "Derived"] ∧
    w.state.tree.readText ⟨"./components/Derived.jsonld"⟩ = .ok (derivedText "pkg:Alias") ∧
    w'.state.tree.readText ⟨"components/Derived.jsonld"⟩ = .ok (derivedText "pkg:Widget") := by
  obtain ⟨report, w, ran, written, text⟩ := run_of_reentrantRun reentrantRun_dotted
  obtain ⟨report', w', ran', written', text'⟩ := run_of_reentrantRun reentrantRun_plain
  exact ⟨report, w, report', w', readText_dotted, ran, ran', written, written', text, text'⟩

end ComponentAtlas
