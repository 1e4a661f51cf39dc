import ComponentAtlas.Proofs.ExportOffers
import ComponentAtlas.Proofs.KindOrder

namespace ComponentAtlas
open Outline

def Diagnostic.About (note : Diagnostic) (name : String) : Prop :=
  ∃ before after, note.message = before ++ "'" ++ name ++ "'" ++ after

def Mentioned (notes : List Diagnostic) (name : String) : Prop := ∃ note ∈ notes, note.About name

theorem Mentioned.subset (mentioned : Mentioned notes name) (inside : notes ⊆ notes') : Mentioned notes' name := by
  obtain ⟨note, member, about⟩ := mentioned
  exact ⟨note, inside member, about⟩

-- The file says nothing about the name.
structure Place.Unknown (x : Place) : Prop where
  undeclared : x.declaration? .any = none
  unbound : x.binding? = none
  closed : x.index.wildcards = []
  notLocal : x.name ∉ x.index.localExports.keys
  notModule : x.name ∉ x.index.namespaces.keys

namespace View

def Passes (v : View) (x y : Place) : Prop :=
  x.declaration? .any = none ∧ ∃ binding, x.binding? = some binding ∧ v.enter binding.name binding.target = some y

def Onward (v : View) : Place → Place → Prop := Relation.ReflTransGen v.Passes

def Asks (v : View) (x : Place) (name : String) : Prop :=
  name = x.name ∨ ∃ y binding, v.Onward x y ∧ y.binding? = some binding ∧ binding.name = name

def Dangles (v : View) (x : Place) : Prop := ∃ y, v.Onward x y ∧ y.Unknown

-- What a search for classes leaves of a name that it does not find.
def Leaves (v : View) (notes : List Diagnostic) (x : Place) : Prop :=
  (∃ name, v.Asks x name ∧ Mentioned notes name) ∨ v.Dangles x

variable {v : View}

theorem enter_name (entered : v.enter name target = some x) : x.name = name := by
  cases target with
  | package => cases entered
  | file path => exact (enter_eq entered).2

theorem Leaves.through (passes : v.Passes x y) (leaves : v.Leaves notes y) : v.Leaves notes x := by
  rcases leaves with ⟨name, asks, mentioned⟩ | ⟨z, way, unknown⟩
  · refine .inl ⟨name, ?_, mentioned⟩
    rcases asks with rfl | ⟨z, binding, way, binds, named⟩
    · obtain ⟨-, binding, binds, entered⟩ := passes
      exact .inr ⟨x, binding, .refl, binds, (enter_name entered).symm⟩
    · exact .inr ⟨z, binding, .head passes way, binds, named⟩
  · exact .inr ⟨z, .head passes way, unknown⟩

theorem Leaves.subset (leaves : v.Leaves notes x) (inside : notes ⊆ notes') : v.Leaves notes' x := by
  rcases leaves with ⟨name, asks, mentioned⟩ | dangles
  · exact .inl ⟨name, asks, mentioned.subset inside⟩
  · exact .inr dangles

end View

namespace Search

variable {v : View} {origin : Reference}

theorem about_repeated (name : String) (path : Path) :
    (Diagnostic.bare .revisitedReference path s!"'{name}' was already visited in this resolution").About name :=
  ⟨"", " was already visited in this resolution", by simp [Diagnostic.bare, ToString.toString, String.ext_iff]⟩

theorem about_package (name package : String) (path : Path) :
    (Diagnostic.bare .packageTarget path
      s!"'{name}' comes from package '{package}', which is not followed").About name :=
  ⟨"", s!" comes from package '{package}', which is not followed", by
    simp [Diagnostic.bare, ToString.toString, String.ext_iff]⟩

theorem about_passedOver (name : String) (path : Path) (e : ResolveError) : (passedOver name path e).About name :=
  ⟨"wildcard target did not provide ", s!": {e.message}", by
    simp [passedOver, Diagnostic.bare, ToString.toString, String.ext_iff]⟩

theorem about_unfollowed (index : Index) (name : String) (path : Path) :
    Mentioned (unfollowed index name path) name ∨ name ∉ index.localExports.keys ∧ name ∉ index.namespaces.keys := by
  unfold unfollowed
  cases listed : index.localExports.get? name with
  | some localName =>
    refine .inl ⟨_, List.mem_singleton_self _, "",
      s!" is re-exported from local '{localName}' without a source module", ?_⟩
    simp [Diagnostic.bare, ToString.toString, String.ext_iff]
  | none =>
    dsimp only
    split
    · refine .inl ⟨_, List.mem_singleton_self _, "", " is a namespace re-export, not a declaration", ?_⟩
      simp [Diagnostic.bare, ToString.toString, String.ext_iff]
    · rename_i absent
      refine .inr ⟨Ordered.get?_eq_none_iff.mp listed, fun member => absent ?_⟩
      exact Ordered.get?_isSome_iff.mpr member

-- The search for any kind ends in something that is no class.
def Turns (v : View) (origin : Reference) (task : Task) (before : List Hop) : Prop :=
  ∃ symbol after notes, Searched v { kinds := .any, origin } task before (.ok symbol) after notes ∧
    symbol.kind ≠ .classSymbol

theorem turns_here (absent : x.declaration? .classes = none) (here : x.declaration? .any = some declaration)
    (before : List Hop) : Turns v origin (.expand x) before := by
  refine ⟨_, _, _, .declared here, fun isClass => ?_⟩
  cases declaration with
  | classDecl d =>
    have narrower : KindFilter.classes.Within .any := ⟨nofun, nofun⟩
    have found : x.declaration? .classes = some (.classDecl d) := Index.local?_admitted narrower here rfl
    rw [absent] at found
    cases found
  | interfaceDecl | aliasDecl | enumDecl => cases isClass

theorem Turns.imp (turns : Turns v origin task before)
    (step : ∀ {symbol after notes}, Searched v { kinds := .any, origin } task before (.ok symbol) after notes →
      Searched v { kinds := .any, origin } task' before' (.ok symbol) after notes) : Turns v origin task' before' := by
  obtain ⟨symbol, after, notes, searched, other⟩ := turns
  exact ⟨symbol, after, notes, step searched, other⟩

def Remains (v : View) (notes : List Diagnostic) : Task → Prop
  | .look name path => Mentioned notes name ∨ ∃ x, v.enter name (.file path) = some x ∧ v.Leaves notes x
  | .follow name target _ => Mentioned notes name ∨ ∃ x, v.enter name target = some x ∧ v.Leaves notes x
  | .expand x => v.Leaves notes x
  | .scan x targets => Mentioned notes x.name ∨
      targets = [] ∧ x.name ∉ x.index.localExports.keys ∧ x.name ∉ x.index.namespaces.keys

-- The search for any kind goes along until a place declares the name as something else than a class. Both pass
-- the same places before, so what the one leaves there counts for the other.
theorem remains_of_searched (broken : ∀ path e, v path = .error e → e.isSymbolNotFound = false)
    (searched : Searched v { kinds := .classes, origin } task before (.error e) after notes)
    (missing : e.isSymbolNotFound = true) : Remains v notes task ∨ Turns v origin task before := by
  generalize request : ({ kinds := .classes, origin } : Request) = classes at searched
  generalize failed : Except.error e = result at searched
  induction searched with
  | unreadable shown =>
    cases failed
    rw [broken _ _ shown] at missing
    cases missing
  | repeated => exact .inl (.inl ⟨_, List.mem_singleton_self _, about_repeated _ _⟩)
  | entered shown fresh _ ih =>
    rcases ih failed with leaves | turns
    · exact .inl (.inr ⟨_, shown, leaves⟩)
    · exact .inr (turns.imp (.entered shown fresh))
  | declared | hit => cases failed
  | @bound x binding before _ _ notes absent binds _ ih =>
    subst request
    cases here : x.declaration? .any with
    | some declaration => exact .inr (turns_here absent here before)
    | none =>
      rcases ih failed with (mentioned | ⟨y, entered, leaves⟩) | turns
      · exact .inl (.inl ⟨_, .inr ⟨x, binding, .refl, binds, rfl⟩, mentioned⟩)
      · have passes : v.Passes x y := ⟨here, binding, binds, entered⟩
        exact .inl (leaves.through passes)
      · exact .inr (turns.imp (.bound here binds))
  | @unbound x before _ _ notes absent free _ ih =>
    subst request
    cases here : x.declaration? .any with
    | some declaration => exact .inr (turns_here absent here before)
    | none =>
      rcases ih failed with (mentioned | ⟨closed, notLocal, notModule⟩) | turns
      · exact .inl (.inl ⟨_, .inl rfl, mentioned⟩)
      · exact .inl (.inr ⟨x, .refl, here, free, closed, notLocal, notModule⟩)
      · exact .inr (turns.imp (.unbound here free))
  | file _ ih =>
    rcases ih failed with remains | turns
    · exact .inl remains
    · exact .inr (turns.imp .file)
  | package => exact .inl (.inl ⟨_, List.mem_singleton_self _, about_package _ _ _⟩)
  | @exhausted x => exact .inl ((about_unfollowed x.index x.name x.file.path).imp_right fun absent => ⟨rfl, absent⟩)
  | miss => exact .inl (.inl ⟨_, List.mem_append_right _ List.mem_cons_self, about_passedOver _ _ _⟩)

end Search

theorem ExportList.mem_taken_foldl {l : ExportList} {offers : List Offer} :
    name ∈ (offers.foldl offer l).taken ↔ name ∈ offers.map Prod.fst ∨ name ∈ l.taken := by
  induction offers generalizing l with
  | nil => simp
  | cons o rest ih =>
    rw [List.foldl_cons, ih, mem_taken_offer, List.map_cons, List.mem_cons, or_left_comm, or_assoc]

theorem ExportList.taken_kept (l : ExportList) (offers : List Offer) : l.taken ⊆ (offers.foldl offer l).taken :=
  fun _ taken => mem_taken_foldl.mpr (.inr taken)

theorem Offer.ofResolved_none (missing : ofResolved name via result = none) :
    ∃ e, result = .error e ∧ e.isSymbolNotFound = true := by
  cases result with
  | ok symbol => cases missing
  | error e =>
    rw [ofResolved] at missing
    split at missing
    · rename_i notFound
      exact ⟨e, rfl, notFound⟩
    · cases missing

namespace Enumeration

variable {σ : Type} {p : Provider σ} {v : View} {w : Work σ}

def Sought (v : View) (path : Path) (name : String) (result : Except ResolveError Symbol)
    (notes : List Diagnostic) : Prop :=
  ∃ after, Search.Searched v { kinds := .classes, origin := .of name path } (.look name path) [] result after notes

def Settles (v : View) (l : ExportList) (notes : List Diagnostic) (path : Path) (name : String) : Prop :=
  name ∈ l.taken ∨ ∃ e own, e.isSymbolNotFound = true ∧ Sought v path name (.error e) own ∧ own ⊆ notes

theorem Settles.later (settles : Settles v l notes path name) (kept : l.taken ⊆ l'.taken) (inside : notes ⊆ notes') :
    Settles v l' notes' path name := by
  rcases settles with taken | ⟨e, own, missing, sought, some⟩
  · exact .inl (kept taken)
  · exact .inr ⟨e, own, missing, sought, List.Subset.trans some inside⟩

theorem Reexported.kept (shows : p.Shows within v) (known : within w.state) {x : IndexedFile}
    (reexported : Reexported v x.1.path names l notes l') : l.taken ⊆ l'.taken := by
  rw [reexported.eq_foldl shows known]
  exact ExportList.taken_kept _ _

theorem Reexported.settles (shows : p.Shows within v) (known : within w.state) {x : IndexedFile}
    (reexported : Reexported v x.1.path names l notes l') (member : name ∈ names) :
    Settles v l' notes x.1.path name := by
  induction reexported with
  | done => cases member
  | taken taken rest ih =>
    rcases List.mem_cons.mp member with rfl | later
    · exact .inl (rest.kept shows known (ExportList.isTaken_iff.mp taken))
    · exact ih later
  | @tried first names l result after notes notes' l' free searched rest ih =>
    rcases List.mem_cons.mp member with rfl | later
    · have kept := rest.kept shows known
      rw [settle_eq_foldl free] at kept
      cases offered : Offer.ofResolved name x.1.path result with
      | some o =>
        refine .inl (kept (ExportList.mem_taken_foldl.mpr (.inl ?_)))
        rw [offered, ← Offer.ofResolved_name offered]
        exact List.mem_singleton_self _
      | none =>
        obtain ⟨e, rfl, missing⟩ := Offer.ofResolved_none offered
        exact .inr ⟨e, notes, missing, ⟨after, searched⟩, List.subset_append_left _ _⟩
    · exact (ih later).later (List.Subset.refl _) (List.subset_append_right _ _)

theorem Scanned.settles (shows : p.Shows within v) (known : within w.state) {x : IndexedFile}
    (scanned : Scanned v files l notes l') (inside : x ∈ files) (member : name ∈ x.2.reexports.keys) :
    Settles v l' notes x.1.path name := by
  induction scanned with
  | done => cases inside
  | file own rest ih =>
    rcases List.mem_cons.mp inside with rfl | later
    · refine (own.settles shows known member).later ?_ (List.subset_append_left _ _)
      rw [rest.eq_foldl shows known]
      exact ExportList.taken_kept _ _
    · exact (ih later).later (List.Subset.refl _) (List.subset_append_right _ _)

theorem Sought.remains (broken : ∀ path e, v path = .error e → e.isSymbolNotFound = false)
    (sought : Sought v path name (.error e) notes) (missing : e.isSymbolNotFound = true) :
    (∃ x ∈ v.starts (.of name path), v.Leaves notes x) ∨ Search.Turns v (.of name path) (.look name path) [] := by
  obtain ⟨after, searched⟩ := sought
  cases searched with
  | unreadable shown =>
    rw [broken _ _ shown] at missing
    cases missing
  | repeated _ seen => cases seen
  | @entered _ _ x _ _ _ _ shown fresh rest =>
    rcases Search.remains_of_searched broken rest missing with leaves | turns
    · exact .inl ⟨x, Option.mem_toList.mpr shown, leaves⟩
    · exact .inr (turns.imp (.entered shown fresh))

theorem Reexported.noted (reexported : Reexported v path names l notes l') (member : note ∈ notes) :
    ∃ name ∈ names, ∃ result own, Sought v path name result own ∧ note ∈ own := by
  induction reexported with
  | done => cases member
  | taken _ _ ih =>
    obtain ⟨name, listed, rest⟩ := ih member
    exact ⟨name, List.mem_cons_of_mem _ listed, rest⟩
  | tried _ searched _ ih =>
    rcases List.mem_append.mp member with here | later
    · exact ⟨_, List.mem_cons_self, _, _, ⟨_, searched⟩, here⟩
    · obtain ⟨name, listed, rest⟩ := ih later
      exact ⟨name, List.mem_cons_of_mem _ listed, rest⟩

theorem Scanned.noted (scanned : Scanned v files l notes l') (member : note ∈ notes) :
    ∃ x ∈ files, ∃ name ∈ x.2.reexports.keys, ∃ result own, Sought v x.1.path name result own ∧ note ∈ own := by
  induction scanned with
  | done => cases member
  | file own _ ih =>
    rcases List.mem_append.mp member with here | later
    · exact ⟨_, List.mem_cons_self, own.noted here⟩
    · obtain ⟨x, inside, rest⟩ := ih later
      exact ⟨x, List.mem_cons_of_mem _ inside, rest⟩

end Enumeration

variable {σ : Type} {p : Provider σ} {w w' : Work σ} {l : ExportList}

-- Names that files export themselves or re-export by name are accounted for, but for re-exports that lead
-- to a file without the name. Other exports are noted only on behalf of a named re-export.
theorem exportedClasses_traced (consistent : p.Consistent w.state)
    (enumerated : exportedClasses p entry w = some (.ok l, w')) :
    ∃ start notes, p.view w.state entry = .ok start ∧ w'.diagnostics = w.diagnostics ++ notes ∧
      (∀ x name, (p.view w.state).Forwards start x →
        name ∈ x.2.exportedClasses.keys ∨ name ∈ x.2.reexports.keys →
        name ∈ l.classes.keys ∨ name ∈ l.failed.map (·.1) ∨
          (∃ symbol later, resolve p .any (.of name x.1.path) w = some (.ok symbol, later) ∧
            symbol.kind ≠ .classSymbol) ∨
          ∃ y ∈ (p.view w.state).starts (.of name x.1.path), (p.view w.state).Leaves notes y) ∧
      ∀ note ∈ notes, note.kind = .unfollowedExport →
        ∃ x name, (p.view w.state).Forwards start x ∧ name ∈ x.2.reexports.keys ∧
          ∃ result later own, resolve p .classes (.of name x.1.path) w = some (result, later) ∧
            later.diagnostics = w.diagnostics ++ own ∧ note ∈ own := by
  have shows := consistent.shows
  have coherent := consistent.coherent
  obtain ⟨file, index, notes, after, shown, reported, collected⟩ := exportedClasses_collected shows .refl enumerated
  have has : (p.view w.state).Has (file, index) := ⟨entry, shown⟩
  obtain ⟨files, own, scanned, kept, toured⟩ := collected.scanned coherent ⟨(file, index), has, rfl, rfl, rfl⟩
  refine ⟨(file, index), notes, shown, reported, fun x name way exported => ?_, fun note member unfollowed => ?_⟩
  · have inside := (toured.mem_iff coherent has).mpr way
    have settles : Enumeration.Settles (p.view w.state) l own x.1.path name := by
      rcases exported with exported | reexported
      · refine .inl ?_
        have offered : x.ofClass name ∈ files.flatMap (IndexedFile.offers p w) :=
          List.mem_flatMap.mpr ⟨x, inside, List.mem_append_left _ (List.mem_map_of_mem exported)⟩
        rw [scanned.eq_foldl shows .refl]
        exact ExportList.mem_taken_foldl.mpr (.inl (List.mem_map_of_mem offered))
      · exact scanned.settles shows .refl inside reexported
    rcases settles with taken | ⟨e, own', missing, sought, inner⟩
    · exact (List.mem_append.mp taken).imp_right .inl
    · have broken : ∀ path e, p.view w.state path = .error e → e.isSymbolNotFound = false :=
        fun _ _ shown => (opened_error shown).not_symbolNotFound
      rcases sought.remains broken missing with ⟨y, start, leaves⟩ | ⟨symbol, after', notes', searched, other⟩
      · exact .inr (.inr (.inr ⟨y, start, leaves.subset (List.Subset.trans inner kept.inside)⟩))
      · obtain ⟨later, resolved, -⟩ := searched_resolve (w := w) shows .refl searched
        exact .inr (.inr (.inl ⟨symbol, later, resolved, other⟩))
  · obtain ⟨x, inside, name, listed, result, own', ⟨after', searched⟩, here⟩ :=
      scanned.noted (kept.unfollowed note member unfollowed)
    obtain ⟨later, resolved, reported', -⟩ := searched_resolve (w := w) shows .refl searched
    exact ⟨x, name, (toured.mem_iff coherent has).mp inside, listed, result, later, own', resolved, reported', here⟩

-- A class that comes from a package.
def vendor : SourceFile :=
  .ofForms "vendor.ts" [.exportNamed [{ name := "Widget", otherName := none, range := default }] (some "widgets")]

theorem exportedClasses_traced_vendor : ∃ l w',
    exportedClasses (.ofFiles [vendor]) ⟨"vendor.ts"⟩ (.start ()) = some (.ok l, w') ∧
      l.taken = [] ∧ Mentioned w'.diagnostics "Widget" := by
  let p := Provider.ofFiles [vendor]
  let v := p.view ()
  let x := Place.of vendor "Widget"
  have consistent : p.Consistent () := Provider.ofFiles_consistent _
  have shown : v ⟨"vendor.ts"⟩ = .ok (vendor, .ofStatements vendor) :=
    Provider.ofFiles_view (by decide +kernel) (by decide +kernel)
  have entered : v.enter "Widget" (.file ⟨"vendor.ts"⟩) = some x := View.enter_file _ shown
  have binds : x.binding? = some { name := "Widget", target := .package "widgets" } := by decide +kernel
  have missed (kinds : KindFilter) (absent : x.declaration? kinds = none) :
      Search.Searched v { kinds, origin := .of "Widget" ⟨"vendor.ts"⟩ } (.look "Widget" ⟨"vendor.ts"⟩) []
        (.error (.symbolNotFound "Widget" ⟨"vendor.ts"⟩)) _ _ :=
    .entered entered List.not_mem_nil (.bound absent binds .package)
  have own : ∃ notes, Enumeration.Reexported v vendor.path (Index.ofStatements vendor).reexports.keys
      (Enumeration.addClasses vendor.path (Index.ofStatements vendor).exportedClasses.keys .empty) notes .empty := by
    rw [show (Index.ofStatements vendor).exportedClasses.keys = [] by decide +kernel,
      show (Index.ofStatements vendor).reexports.keys = ["Widget"] by decide +kernel]
    exact ⟨_, .tried rfl (missed .classes (by decide +kernel)) .done⟩
  obtain ⟨own, reexported⟩ := own
  have onward : Enumeration.Collected v (.targets vendor.path (Index.ofStatements vendor).wildcards)
      [vendor.path.components] .empty [] [vendor.path.components] .empty := by
    rw [show (Index.ofStatements vendor).wildcards = [] by decide +kernel]
    exact .done
  have collected : Enumeration.Collected v (.file vendor.path (.ofStatements vendor)) [] .empty _ _ .empty :=
    .entered List.not_mem_nil reexported onward
  obtain ⟨w', enumerated, -⟩ := collected_exportedClasses (w := .start ()) consistent.shows .refl shown collected
  refine ⟨.empty, w', enumerated, rfl, ?_⟩
  obtain ⟨start, notes, shown', reported, traced, -⟩ := exportedClasses_traced consistent enumerated
  obtain rfl : (vendor, Index.ofStatements vendor) = start := Except.ok.inj (shown.symm.trans shown')
  have alone : ∀ y, v.Onward x y → y = x := by
    intro y way
    rcases Relation.ReflTransGen.cases_head way with rfl | ⟨z, ⟨-, binding, binds', entered'⟩, -⟩
    · rfl
    · rw [binds] at binds'
      cases binds'
      cases entered'
  rcases traced _ "Widget" .refl (.inr (by decide +kernel)) with
    listed | failed | ⟨symbol, later, resolved, -⟩ | ⟨y, member, leaves⟩
  · cases listed
  · cases failed
  · obtain ⟨later', resolved', -⟩ := searched_resolve (w := .start ()) consistent.shows .refl
      (missed .any (by decide +kernel))
    cases resolved'.symm.trans resolved
  · obtain rfl : x = y := Option.some.inj (entered.symm.trans (Option.mem_toList.mp member))
    rw [reported]
    rcases leaves with ⟨name, rfl | ⟨z, binding, way, binds', rfl⟩, mentioned⟩ | ⟨z, way, unknown⟩
    · exact mentioned
    · obtain rfl := alone z way
      rw [binds] at binds'
      cases binds'
      exact mentioned
    · obtain rfl := alone z way
      rw [unknown.unbound] at binds
      cases binds

-- A class that is exported by a list without a source.
def hidden : SourceFile :=
  .ofForms "index.ts" [.declaration .none widget,
    .exportNamed [{ name := "Widget", otherName := none, range := default }] none]

theorem exportedClasses_silent : ∃ l w',
    (Provider.ofFiles [hidden]).view () ⟨"index.ts"⟩ = .ok (hidden, .ofStatements hidden) ∧
      "Widget" ∈ (Index.ofStatements hidden).localExports.keys ∧
      exportedClasses (.ofFiles [hidden]) ⟨"index.ts"⟩ (.start ()) = some (.ok l, w') ∧
      "Widget" ∉ l.classes.keys ∧ "Widget" ∉ l.failed.map (·.1) ∧ w'.diagnostics = [] ∧
      ∃ symbol w'', resolve (.ofFiles [hidden]) .any (.of "Widget" ⟨"index.ts"⟩) (.start ()) = some (.ok symbol, w'') ∧
        symbol.kind = .classSymbol := by
  let p := Provider.ofFiles [hidden]
  have consistent : p.Consistent () := Provider.ofFiles_consistent _
  have shown : p.view () ⟨"index.ts"⟩ = .ok (hidden, .ofStatements hidden) :=
    Provider.ofFiles_view (by decide +kernel) (by decide +kernel)
  have last : (Index.ofStatements hidden).wildcards = [] := by decide +kernel
  have collected : Enumeration.Collected (p.view ()) (.file hidden.path (.ofStatements hidden)) [] .empty _ _ _ :=
    .of_bare List.not_mem_nil (by decide +kernel) last .done
  obtain ⟨w', enumerated, reported⟩ := collected_exportedClasses (w := .start ()) consistent.shows .refl shown collected
  have here : (Place.of hidden "Widget").declaration? .any = some widget := by decide +kernel
  have resolves : (p.view ()).Resolves .any (.of "Widget" ⟨"index.ts"⟩) (.ok _) :=
    ⟨_, _, .entered (View.enter_file "Widget" shown) List.not_mem_nil (.declared here)⟩
  obtain ⟨w'', resolved⟩ := resolve_complete (w := .start ()) consistent.shows .refl resolves
  exact ⟨_, w', shown, by decide +kernel, enumerated, by decide +kernel, by decide +kernel, reported, _, w'', resolved, rfl⟩

end ComponentAtlas
