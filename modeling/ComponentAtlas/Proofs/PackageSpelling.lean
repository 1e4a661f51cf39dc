import ComponentAtlas.Proofs.PathSpelling
import ComponentAtlas.Proofs.ReportAccount

namespace ComponentAtlas
open Outline

namespace FileTree

variable {t t' : FileTree} {p q : Path}

-- Directories stay directories and files stay files.
structure Grows (t t' : FileTree) : Prop where
  base : t.workingDirectory = t'.workingDirectory
  directory : t.entry? place = some .directory → t'.entry? place = some .directory
  file : t.entry? place = some (.file content) → ∃ content', t'.entry? place = some (.file content')

theorem Grows.refl (t : FileTree) : t.Grows t := ⟨rfl, id, fun here => ⟨_, here⟩⟩

theorem Grows.trans (one : t.Grows between) (two : between.Grows t') : t.Grows t' where
  base := one.base.trans two.base
  directory here := two.directory (one.directory here)
  file here := by
    obtain ⟨content, here⟩ := one.file here
    exact two.file here

theorem lookup_filter_ne {entries : List (Location × Entry)} (other : place' ≠ place) :
    (entries.filter (·.1 != place)).lookup place' = entries.lookup place' := by
  induction entries with
  | nil => rfl
  | cons first rest ih =>
    obtain ⟨there, entry⟩ := first
    by_cases here : there = place
    · have miss : (place' == there) = false := by simpa [here] using other
      rw [List.filter_cons, if_neg (by simp [here]), ih, List.lookup_cons, miss]
    · rw [List.filter_cons, if_pos (by simpa using here), List.lookup_cons, List.lookup_cons, ih]

theorem entry_set (t : FileTree) (entry : Entry) (some : place ≠ []) (other : Location) :
    FileTree.entry? (t.set place entry) other = if other = place then Option.some entry else t.entry? other := by
  cases other with
  | nil =>
    rw [if_neg (Ne.symm some)]
    rfl
  | cons name rest =>
    change ((place, entry) :: t.entries.filter (·.1 != place)).lookup (name :: rest) = _
    rw [List.lookup_cons]
    by_cases here : name :: rest = place
    · simp [here]
    · have miss : (name :: rest == place) = false := beq_eq_false_iff_ne.mpr here
      rw [miss, if_neg here, lookup_filter_ne here]
      rfl

-- An entry may be put where nothing is, and a file in the place of another.
theorem grows_set {entry : Entry} (free : t.entry? place = none ∨
    ∃ content content', t.entry? place = some (.file content) ∧ entry = .file content') : t.Grows (t.set place entry) := by
  have some : place ≠ [] := by
    rintro rfl
    rcases free with none | ⟨_, _, file, -⟩
    · cases none
    · cases file
  refine ⟨rfl, fun {other} here => ?_, fun {other content} here => ?_⟩
  · rw [entry_set t entry some]
    split
    · rename_i same
      rw [same] at here
      rcases free with none | ⟨_, _, file, -⟩
      · rw [none] at here
        cases here
      · rw [file] at here
        cases here
    · exact here
  · rw [entry_set t entry some]
    split
    · rename_i same
      rw [same] at here
      rcases free with none | ⟨_, content', -, rfl⟩
      · rw [none] at here
        cases here
      · exact ⟨content', rfl⟩
    · exact ⟨content, here⟩

theorem write_ok_iff : t.write p content = .ok t' ↔ ∃ place, t.locate p = .ok place ∧
    t.entry? place ≠ some .directory ∧ t.requireDirectory place.dropLast = .ok () ∧ t' = t.set place (.file content) := by
  unfold write
  cases t.locate p with
  | error e =>
    refine iff_of_false ?_ nofun
    split
    · split <;> nofun
    · nofun
    · rename_i equal
      cases equal
  | ok place =>
    simp only [Except.ok.injEq, exists_eq_left']
    cases t.entry? place with
    | none => cases t.requireDirectory place.dropLast <;> simp [eq_comm]
    | some entry =>
      cases entry with
      | directory => simp
      | file => cases t.requireDirectory place.dropLast <;> simp [eq_comm]

theorem write_grows (written : t.write p content = .ok t') : t.Grows t' := by
  obtain ⟨place, -, other, -, rfl⟩ := write_ok_iff.mp written
  refine grows_set ?_
  cases here : t.entry? place with
  | none => exact .inl rfl
  | some entry =>
    cases entry with
    | directory => exact absurd here other
    | file old => exact .inr ⟨old, content, rfl, rfl⟩

theorem write_alike (alike : p.Alike q) (content : Content) : t.write p content = .ok t' ↔ t.write q content = .ok t' := by
  rw [write_ok_iff, write_ok_iff, locate_alike alike]

theorem makeDirectory_grows (made : t.makeDirectory p = .ok t') : t.Grows t' := by
  unfold makeDirectory at made
  split at made
  · cases made
  · split at made
    · cases made
    · rename_i free
      split at made
      · cases made
      · cases made
        exact grows_set (.inl free)

theorem makeDirectories_grows (made : makeDirectories depth t p = .ok t') : t.Grows t' := by
  induction depth generalizing t t' p with
  | zero => cases made
  | succ depth ih =>
    unfold makeDirectories at made
    split at made
    · cases made
      exact .refl t
    · split at made
      · rename_i one
        cases made
        exact makeDirectory_grows one
      · split at made
        · cases made
        · split at made
          · cases made
          · rename_i between above
            have grown := ih above
            split at made
            · rename_i last
              cases made
              exact grown.trans (makeDirectory_grows last)
            · split at made
              · cases made
                exact grown
              · cases made
      · split at made
        · cases made
          exact .refl t
        · cases made

-- Ways stay open where directories stay.
theorem walk_kept (kept : ∀ {place}, t.entry? place = some .directory → t'.entry? place = some .directory)
    (walked : t.walk place segs = .ok there) : t'.walk place segs = .ok there := by
  induction segs generalizing place with
  | nil => exact walked
  | cons seg rest ih =>
    rw [walk_cons] at walked ⊢
    cases directory : t.requireDirectory place with
    | error e =>
      rw [directory] at walked
      cases walked
    | ok =>
      rw [directory] at walked
      rw [requireDirectory_ok_iff.mpr (kept (requireDirectory_ok_iff.mp directory))]
      exact ih walked

theorem locate_kept (base : t.workingDirectory = t'.workingDirectory)
    (kept : ∀ {place}, t.entry? place = some .directory → t'.entry? place = some .directory)
    (located : t.locate p = .ok place) : t'.locate p = .ok place := by
  have full := text_of_locate located
  rw [locate_eq full, start] at located ⊢
  rw [← base]
  exact walk_kept kept located

theorem Grows.locate (grown : t.Grows t') (located : t.locate p = .ok place) : t'.locate p = .ok place :=
  locate_kept grown.base grown.directory located

theorem Grows.isFile (grown : t.Grows t') (file : t.isFile p = true) : t'.isFile p = true := by
  obtain ⟨place, located⟩ := locate_of_isFile file
  have located' := grown.locate located
  unfold FileTree.isFile lookup? at file ⊢
  rw [located] at file
  rw [located']
  dsimp only at file ⊢
  cases here : t.entry? place with
  | none =>
    rw [here] at file
    cases file
  | some entry =>
    cases entry with
    | directory =>
      rw [here] at file
      cases file
    | file content =>
      obtain ⟨content', here'⟩ := grown.file here
      rw [here']

theorem Grows.twin (grown : t.Grows t') (twin : t.Twin p q) : t'.Twin p q := by
  rcases twin with equal | ⟨same, one, two⟩
  · exact .inl equal
  · exact .inr ⟨same, grown.isFile one, grown.isFile two⟩

end FileTree

namespace Library

variable {t t' : FileTree} {l l' : Library}

-- Over one tree, with outlines of the same places that differ in the spelling of their paths at most.
structure Matched (t : FileTree) (l l' : Library) : Prop where
  left : l.tree = t
  right : l'.tree = t
  known : List.Forall₂ (fun x x' => x.1 = x'.1 ∧ x.2.Like t.Twin x'.2) l.known l'.known

theorem Matched.refl (l : Library) : Matched l.tree l l :=
  ⟨rfl, rfl, List.forall₂_same.mpr fun _ _ => ⟨rfl, .inl rfl, rfl⟩⟩

theorem lookup_matched {like : SourceFile → SourceFile → Prop} {known known' : List (List Path.Component × SourceFile)}
    (related : List.Forall₂ (fun x x' => x.1 = x'.1 ∧ like x.2 x'.2) known known') (place : List Path.Component) :
    (known.lookup place = none ∧ known'.lookup place = none) ∨
      ∃ file file', known.lookup place = some file ∧ known'.lookup place = some file' ∧ like file file' := by
  induction related with
  | nil => exact .inl ⟨rfl, rfl⟩
  | @cons x x' _ _ first _ ih =>
    obtain ⟨key, file⟩ := x
    obtain ⟨key', file'⟩ := x'
    obtain ⟨rfl, both⟩ := first
    rw [List.lookup_cons, List.lookup_cons]
    cases place == key with
    | true => exact .inr ⟨file, file', rfl, rfl, both⟩
    | false => exact ih

theorem Matched.load (matched : Matched t l l') (twin : t.Twin path path') :
    Agrees (ParseError.Like t.Twin) (SourceFile.Like t.Twin) (l.load path).result (l'.load path').result ∧
      Matched t (l.load path).state (l'.load path').state := by
  obtain ⟨one, two, known⟩ := matched
  have probes := FileTree.findSource_twin twin
  unfold Library.load
  rw [one, two]
  generalize t.findSource path = probe at probes
  generalize t.findSource path' = probe' at probes
  cases probes with
  | error both => exact ⟨.error both, one, two, known⟩
  | @ok found found' twin =>
    have place : found.components = found'.components := twin.same
    dsimp only
    rw [← place]
    rcases lookup_matched known found.components with ⟨new, new'⟩ | ⟨file, file', old, old', both⟩
    · rw [new, new']
      have outlines := FileTree.outlineAt_twin twin
      generalize t.outlineAt found = answer at outlines
      generalize t.outlineAt found' = answer' at outlines
      cases outlines with
      | error both => exact ⟨.error both, one, two, known⟩
      | ok both => exact ⟨.ok both, rfl, rfl, .cons ⟨rfl, both⟩ known⟩
    · rw [old, old']
      exact ⟨.ok both, one, two, known⟩

theorem matched_lockstep (t : FileTree) : Lockstep provider provider t.Twin (Matched t) where
  refl := .inl rfl
  same := FileTree.Twin.same
  load matched twin _ := matched.load twin

-- Libraries stay matched when their trees grow alike.
theorem Matched.grow (matched : Matched t l l') (grown : t.Grows t') :
    Matched t' { l with tree := t' } { l' with tree := t' } :=
  ⟨rfl, rfl, matched.known.imp fun _ _ both => ⟨both.1, grown.twin both.2.path, both.2.statements⟩⟩

end Library

theorem Package.load_respelled {t : FileTree} {dir dir' : Path} (same : dir.Same dir') :
    Agrees (fun _ _ => True) (fun package package' => package.root = dir ∧ package' = { package with root := dir' })
      (Package.load t dir) (Package.load t dir') := by
  have texts : t.readText (metadataPath dir) = t.readText (metadataPath dir') :=
    FileTree.readText_alike (Path.join_alike same _)
  unfold Package.load
  rw [texts]
  cases t.readText (metadataPath dir') with
  | error cause => exact .error trivial
  | ok text =>
    dsimp only
    unfold ofText
    cases Json.read PackageFields.reader text with
    | error reason => exact .error trivial
    | ok fields =>
      dsimp only
      cases fields.name.filter (!isBlankName ·) with
      | none => exact .error trivial
      | some name => exact .ok ⟨rfl, rfl⟩

theorem Package.load_located {t : FileTree} (loaded : Package.load t dir = .ok package) :
    ∃ place, t.locate (metadataPath dir) = .ok place := by
  unfold Package.load FileTree.readText at loaded
  cases located : t.locate (metadataPath dir) with
  | error e =>
    rw [located] at loaded
    cases loaded
  | ok place => exact ⟨place, rfl⟩

theorem IgnoreList.load_alike {t : FileTree} {p q : Path} (alike : p.Alike q) :
    Agrees (fun _ _ => True) Eq (IgnoreList.load t p).1 (IgnoreList.load t q).1 := by
  unfold IgnoreList.load
  rw [FileTree.readText_alike alike]
  split
  · exact .ok rfl
  · exact .error trivial
  · split
    · exact .error trivial
    · exact .ok rfl

namespace Generate

theorem entryCandidates_alike {package : Package} {dir' : Path} (same : package.root.Same dir') (sourceDir : Path) :
    List.Forall₂ Path.Alike (package.entryCandidates sourceDir)
      (Package.entryCandidates { package with root := dir' } sourceDir) := by
  have first : (package.root.joinText package.typesStem).Alike (dir'.joinText package.typesStem) := Path.join_alike same _
  have fallback : ((package.root.join sourceDir).joinText "index").Alike ((dir'.join sourceDir).joinText "index") :=
    Path.join_alike (Path.join_same same sourceDir) _
  have firsts : (package.root.joinText package.typesStem).components = (dir'.joinText package.typesStem).components :=
    first.same
  have fallbacks : ((package.root.join sourceDir).joinText "index").components =
      ((dir'.join sourceDir).joinText "index").components := fallback.same
  unfold Package.entryCandidates
  change List.Forall₂ _ (if _ = _ then _ else _)
    (if (dir'.joinText package.typesStem).components = ((dir'.join sourceDir).joinText "index").components then
      [dir'.joinText package.typesStem] else [dir'.joinText package.typesStem, (dir'.join sourceDir).joinText "index"])
  rw [firsts, fallbacks]
  split
  · exact .cons first .nil
  · exact .cons first (.cons fallback .nil)

theorem findEntry_respelled {t : FileTree} {package : Package} {dir' : Path} (same : package.root.Same dir')
    (sourceDir : Path) :
    Agrees (fun _ _ => True) t.Twin (findEntry t package sourceDir)
      (findEntry t { package with root := dir' } sourceDir) := by
  have found : ∀ {cs cs' : List Path}, List.Forall₂ Path.Alike cs cs' →
      Option.Rel t.Twin (cs.findSome? fun c => (t.findSource c).toOption)
        (cs'.findSome? fun c => (t.findSource c).toOption) := by
    intro cs cs' candidates
    induction candidates with
    | nil => exact .none
    | @cons c c' _ _ first _ ih =>
      have sources := FileTree.findSource_alike (t := t) first
      rw [List.findSome?_cons, List.findSome?_cons]
      generalize t.findSource c = one at sources
      generalize t.findSource c' = two at sources
      cases sources with
      | error => exact ih
      | ok twin => exact .some twin
  have entries := found (entryCandidates_alike same sourceDir)
  unfold findEntry
  dsimp only
  generalize (package.entryCandidates sourceDir).findSome? _ = one at entries
  generalize (Package.entryCandidates { package with root := dir' } sourceDir).findSome? _ = two at entries
  cases entries with
  | none => exact .error trivial
  | some twin => exact .ok twin

variable {t : FileTree} {plan plan' : Plan} {w w' : Work Library}

structure Plan.Respelled (t : FileTree) (plan plan' : Plan) : Prop where
  plans : plan.Like t.Twin plan'
  files : ∀ name, (plan.fileFor name).Alike (plan'.fileFor name)

theorem Plan.Respelled.grow (plans : plan.Respelled t plan') (grown : t.Grows t') : plan.Respelled t' plan' :=
  ⟨⟨plans.plans.package, grown.twin plans.plans.entry, plans.plans.names⟩, plans.files⟩

theorem writeDescriptor_respelled (works : w.state.Matched t w'.state) (alike : path.Alike path') (descriptor : Descriptor) :
    Agrees (fun _ _ => True) Path.Alike (writeDescriptor path descriptor w).1 (writeDescriptor path' descriptor w').1 ∧
      ∃ t', t.Grows t' ∧
        (writeDescriptor path descriptor w).2.state.Matched t' (writeDescriptor path' descriptor w').2.state := by
  have same : ∀ t', w.state.tree.write path (.text descriptor.toJson.pretty) = .ok t' ↔
      w'.state.tree.write path' (.text descriptor.toJson.pretty) = .ok t' := by
    intro t'
    rw [works.left, works.right, FileTree.write_alike alike]
  unfold writeDescriptor
  cases one : w.state.tree.write path (.text descriptor.toJson.pretty) with
  | error e =>
    cases two : w'.state.tree.write path' (.text descriptor.toJson.pretty) with
    | error e' => exact ⟨.error trivial, t, .refl t, works⟩
    | ok t' =>
      have written := (same t').mpr two
      rw [one] at written
      cases written
  | ok t' =>
    rw [(same t').mp one]
    have grown : t.Grows t' := works.left ▸ FileTree.write_grows one
    exact ⟨.ok alike, t', grown, works.grow grown⟩

theorem generateClass_respelled (plans : plan.Respelled t plan') (states : w.state.Matched t w'.state)
    (attempted : generateClass plan name { w with diagnostics := [] } = some r) :
    ∃ r', generateClass plan' name { w' with diagnostics := [] } = some r' ∧
      Agrees (fun _ _ => True) Path.Alike r.1 r'.1 ∧ ∃ t', t.Grows t' ∧ r.2.state.Matched t' r'.2.state := by
  unfold generateClass at attempted ⊢
  obtain ⟨⟨result, between⟩, described, attempted⟩ := Option.bind_eq_some_iff.mp attempted
  have works : Work.Like t.Twin (Library.Matched t) { w with diagnostics := [] } { w' with diagnostics := [] } :=
    ⟨states, .nil⟩
  obtain ⟨⟨result', between'⟩, described', results, works'⟩ :=
    describe_lockstep (Library.matched_lockstep t) plans.plans works described
  rw [described']
  cases results with
  | error =>
    cases attempted
    exact ⟨_, rfl, .error trivial, t, .refl t, works'.state⟩
  | @ok descriptor _ equal =>
    cases equal
    cases attempted
    obtain ⟨results, grown⟩ := writeDescriptor_respelled works'.state (plans.files name) descriptor
    exact ⟨_, rfl, results, grown⟩

structure Outcome.Like (o o' : Outcome) : Prop where
  name : o.name = o'.name
  result : Agrees (fun _ _ => True) Path.Alike o.result o'.result

theorem generateAll_respelled (plans : plan.Respelled t plan')
    (generated : generateAll plan names w = some (outcomes, after)) (w' : Work Library)
    (states : w.state.Matched t w'.state) :
    ∃ outcomes' after', generateAll plan' names w' = some (outcomes', after') ∧
      List.Forall₂ Outcome.Like outcomes outcomes' ∧ ∃ t', after.state.Matched t' after'.state := by
  induction names generalizing t w w' outcomes with
  | nil =>
    cases generated
    exact ⟨_, _, rfl, .nil, t, states⟩
  | cons name rest ih =>
    obtain ⟨⟨result, done⟩, attempted, generated⟩ := Option.bind_eq_some_iff.mp generated
    obtain ⟨⟨later, last⟩, all, equal⟩ := Option.bind_eq_some_iff.mp generated
    cases equal
    obtain ⟨⟨result', done'⟩, attempted', results, t', grown, states'⟩ := generateClass_respelled plans states attempted
    obtain ⟨later', after', all', rest', final⟩ :=
      ih (plans.grow grown) all { done' with diagnostics := w'.diagnostics } states'
    refine ⟨{ name, result := result', diagnostics := done'.diagnostics } :: later', after', ?_,
      .cons ⟨rfl, results⟩ rest', final⟩
    rw [generateAll, attempted']
    simp only [Option.bind_eq_bind, Option.bind_some, all']
    rfl

-- The same names, with files in the same places.
structure ReportLike (r r' : GenerateReport) : Prop where
  written : List.Forall₂ (fun x x' => x.1 = x'.1 ∧ x.2.Alike x'.2) r.written r'.written
  ignored : r.ignored = r'.ignored
  failed : r.failed.map (·.1) = r'.failed.map (·.1)

theorem written_like (outcomes : List.Forall₂ Outcome.Like os os') :
    List.Forall₂ (fun x x' => x.1 = x'.1 ∧ x.2.Alike x'.2) (os.filterMap (·.written?)) (os'.filterMap (·.written?)) := by
  induction outcomes with
  | nil => exact .nil
  | @cons o o' _ _ first _ ih =>
    obtain ⟨name, result⟩ := first
    rw [filterMap_cons_append, filterMap_cons_append]
    refine List.rel_append ?_ ih
    unfold Outcome.written?
    generalize o.result = one at result
    generalize o'.result = two at result
    cases result with
    | error => exact .nil
    | ok alike => exact .cons ⟨name, alike⟩ .nil

theorem failed_like (outcomes : List.Forall₂ Outcome.Like os os') :
    (os.filterMap (·.failed?)).map (·.1) = (os'.filterMap (·.failed?)).map (·.1) := by
  induction outcomes with
  | nil => rfl
  | @cons o o' _ _ first _ ih =>
    obtain ⟨name, result⟩ := first
    rw [filterMap_cons_append, filterMap_cons_append, List.map_append, List.map_append, ih]
    congr 1
    unfold Outcome.failed?
    generalize o.result = one at result
    generalize o'.result = two at result
    cases result with
    | error => exact congrArg (fun name => [name]) name
    | ok => rfl

theorem assemble_like (ignore : IgnoreList) (ignored : List String)
    (failures : plan.exports.failed.map (·.1) = plan'.exports.failed.map (·.1))
    (outcomes : List.Forall₂ Outcome.Like os os') :
    ReportLike (assemble plan ignore ignored os w).1 (assemble plan' ignore ignored os' w').1 := by
  obtain ⟨-, written, ignored, failed⟩ := assemble_adds plan ignore ignored os w
  obtain ⟨-, written', ignored', failed'⟩ := assemble_adds plan' ignore _ os' w'
  refine ⟨?_, ?_, ?_⟩
  · rw [written, written']
    exact written_like outcomes
  · rw [ignored, ignored', excused, excused, failures]
  · rw [failed, failed', List.map_append, List.map_append, blamed_names, blamed_names, failures, failed_like outcomes]

theorem assemble_state (plan : Plan) (ignore : IgnoreList) (ignored : List String) (outcomes : List Outcome)
    (w : Work Library) : (assemble plan ignore ignored outcomes w).2.state = w.state := by
  have kept : ∀ {α : Type} (f : GenerateReport × Work Library → α → GenerateReport × Work Library),
      (∀ x a, (f x a).2.state = x.2.state) → ∀ (l : List α) x, (l.foldl f x).2.state = x.2.state := by
    intro α f keeps l x
    induction l generalizing x with
    | nil => rfl
    | cons a l ih => exact (ih _).trans (keeps x a)
  unfold assemble
  dsimp only
  rw [kept, kept]
  · intro x failure
    unfold skipFailedExport
    split <;> rfl
  · intro x o
    unfold addOutcome
    dsimp only
    split <;> rfl

-- What two runs come to: both fail, or their reports are alike; either way with the same files.
def Ends (r r' : Result GenerateReport) : Prop :=
  r.2.state.tree = r'.2.state.tree ∧ Agrees (fun _ _ => True) ReportLike r.1 r'.1

theorem carryOut_respelled (plans : plan.Respelled t plan') (exports : plan.exports.Like t.Twin plan'.exports)
    (made : t.createDirectories plan.outputDir = t.createDirectories plan'.outputDir)
    (ran : carryOut plan ignore w = some r) (states : w.state.Matched t w'.state) :
    ∃ r', carryOut plan' ignore w' = some r' ∧ Ends r r' := by
  have failures : plan.exports.failed.map (·.1) = plan'.exports.failed.map (·.1) :=
    List.map_eq_of_forall₂ (fun _ _ both => both.1) exports.failed
  unfold carryOut at ran ⊢
  dsimp only at ran ⊢
  rw [states.left, made, exports.keys] at ran
  rw [states.right]
  cases created : t.createDirectories plan'.outputDir with
  | error cause =>
    rw [created] at ran
    cases ran
    exact ⟨_, rfl, states.left.trans states.right.symm, .error trivial⟩
  | ok t' =>
    rw [created] at ran
    obtain ⟨⟨outcomes, last⟩, generated, ran⟩ := Option.bind_eq_some_iff.mp ran
    cases ran
    have grown : t.Grows t' := FileTree.makeDirectories_grows created
    obtain ⟨outcomes', last', generated', alike, t'', states'⟩ := generateAll_respelled (plans.grow grown) generated
      { w' with state := { w'.state with tree := t' } } (states.grow grown)
    dsimp only
    rw [generated']
    refine ⟨_, rfl, ?_, .ok (assemble_like ignore _ failures alike)⟩
    dsimp only
    rw [assemble_state, assemble_state, states'.left, states'.right]

theorem run_ends (settings : Settings) {dir dir' : Path} (same : dir.Same dir')
    (ran : run { settings with packageDir := dir } w = some r) :
    ∃ r', run { settings with packageDir := dir' } w = some r' ∧ Ends r r' := by
  unfold run Settings.ignorePath Settings.outputPath at ran ⊢
  dsimp only at ran ⊢
  have packages := Package.load_respelled (t := w.state.tree) same
  cases loaded : Package.load w.state.tree dir with
  | error e =>
    rw [loaded] at ran packages
    generalize Package.load w.state.tree dir' = loaded' at packages
    cases packages
    cases ran
    exact ⟨_, rfl, rfl, .error trivial⟩
  | ok package =>
    rw [loaded] at ran packages
    generalize Package.load w.state.tree dir' = loaded' at packages
    cases packages with
    | ok both =>
      obtain ⟨rfl, rfl⟩ := both
      obtain ⟨place, located⟩ := Package.load_located loaded
      have made := FileTree.createDirectories_join same (by decide) located settings.outputDir
      have files : ∀ name, (Path.joinText (package.root.join settings.outputDir) (name ++ settings.extension)).Alike
          (Path.joinText (dir'.join settings.outputDir) (name ++ settings.extension)) :=
        fun name => Path.join_alike (Path.join_same same _) _
      have ignores := IgnoreList.load_alike (t := w.state.tree) (Path.join_alike same settings.ignoreFile)
      generalize IgnoreList.load w.state.tree (package.root.join settings.ignoreFile) = listed at ran ignores
      generalize IgnoreList.load w.state.tree (dir'.join settings.ignoreFile) = listed' at ignores
      obtain ⟨listed, log⟩ := listed
      obtain ⟨listed', log'⟩ := listed'
      dsimp only at ignores
      cases ignores with
      | error =>
        cases ran
        exact ⟨_, rfl, rfl, .error trivial⟩
      | @ok ignore _ equal =>
        cases equal
        dsimp only at ran ⊢
        have entries := findEntry_respelled (t := w.state.tree) same settings.sourceDir
        generalize findEntry w.state.tree package settings.sourceDir = found at ran entries
        generalize findEntry w.state.tree { package with root := dir' } settings.sourceDir = found' at entries
        cases entries with
        | error =>
          cases ran
          exact ⟨_, rfl, rfl, .error trivial⟩
        | @ok entry entry' twin =>
          obtain ⟨⟨result, after⟩, enumerated, ran⟩ := Option.bind_eq_some_iff.mp ran
          have works : Work.Like w.state.tree.Twin (Library.Matched w.state.tree)
              { w with log := w.log ++ [package.loadedEntry] ++ log }
              { w with log := w.log ++ [Package.loadedEntry { package with root := dir' }] ++ log' } :=
            ⟨.refl w.state, List.forall₂_same.mpr fun _ _ => ⟨rfl, .inl rfl, rfl, .same⟩⟩
          obtain ⟨⟨result', after'⟩, enumerated', results, works⟩ :=
            (Library.matched_lockstep w.state.tree).exportedClasses twin works enumerated
          dsimp only
          rw [enumerated']
          cases results with
          | error =>
            cases ran
            exact ⟨_, rfl, works.state.left.trans works.state.right.symm, .error trivial⟩
          | @ok exports exports' alike =>
            have plans : Plan.Respelled w.state.tree
                ⟨package, entry, exports, package.root.join settings.outputDir, settings.extension⟩
                ⟨{ package with root := dir' }, entry', exports', dir'.join settings.outputDir, settings.extension⟩ :=
              ⟨⟨rfl, twin, alike.names⟩, files⟩
            dsimp only at ran
            exact carryOut_respelled plans alike made ran works.state

end Generate

-- Spellings of the package directory with the same components make no difference: either both runs end or neither
-- does, with the same files; if they succeed then with the same names written, ignored and failed, and the files
-- that they name for each class hold the same.
theorem run_respelled (settings : Settings) (w : Work Library) {dir dir' : Path} (same : dir.Same dir') :
    Option.Rel
      (fun r r' => r.2.state.tree = r'.2.state.tree ∧
        Agrees (fun _ _ => True)
          (fun report report' =>
            List.Forall₂ (fun x x' => x.1 = x'.1 ∧ x.2.Same x'.2 ∧
              r.2.state.tree.readText x.2 = r'.2.state.tree.readText x'.2) report.written report'.written ∧
            report.ignored = report'.ignored ∧ report.failed.map (·.1) = report'.failed.map (·.1))
          r.1 r'.1)
      (Generate.run { settings with packageDir := dir } w) (Generate.run { settings with packageDir := dir' } w) := by
  cases ran : Generate.run { settings with packageDir := dir } w with
  | none =>
    cases ran' : Generate.run { settings with packageDir := dir' } w with
    | none => exact .none
    | some r' =>
      obtain ⟨r, back, -⟩ := Generate.run_ends settings (Eq.symm same) ran'
      rw [ran] at back
      cases back
  | some r =>
    obtain ⟨r', ran', trees, reports⟩ := Generate.run_ends settings same ran
    rw [ran']
    refine .some ⟨trees, ?_⟩
    obtain ⟨result, after⟩ := r
    obtain ⟨result', after'⟩ := r'
    dsimp only at trees reports ⊢
    cases reports with
    | error => exact .error trivial
    | ok alike =>
      refine .ok ⟨alike.written.imp fun x x' both => ⟨both.1, both.2.same, ?_⟩, alike.ignored, alike.failed⟩
      rw [trees, FileTree.readText_alike both.2]

theorem run_respelled_kit : ∃ report w',
    Generate.run { Settings.defaults with packageDir := ⟨".//"⟩ } (.start kit) = some (.ok report, w') ∧
      report.written.map (·.1) = ["Widget"] ∧ report.ignored = ["Hidden"] ∧ report.failed.map (·.1) = ["Gone"] := by
  obtain ⟨report, w, ran, written, ignored, lost⟩ := kit_runs
  have same : (⟨"."⟩ : Path).Same ⟨".//"⟩ := by decide +kernel
  have both := run_respelled .defaults (.start kit) same
  have dotted : Generate.run { Settings.defaults with packageDir := ⟨"."⟩ } (.start kit) = some (.ok report, w) := ran
  rw [dotted] at both
  generalize Generate.run { Settings.defaults with packageDir := ⟨".//"⟩ } (.start kit) = other at both
  cases both with
  | some both =>
    rename_i r
    obtain ⟨result, w'⟩ := r
    obtain ⟨-, reports⟩ := both
    cases reports with
    | ok alike =>
      obtain ⟨files, ignored', lost'⟩ := alike
      refine ⟨_, w', rfl, ?_, by rw [← ignored', ignored], by rw [← lost', lost]⟩
      rw [← written]
      exact (List.map_eq_of_forall₂ (fun _ _ both => both.1) files).symm

end ComponentAtlas
