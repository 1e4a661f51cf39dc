import ComponentAtlas.Proofs.FileTour
import ComponentAtlas.Proofs.StatementIndex

namespace ComponentAtlas
open Outline

abbrev Offer := String × Except ResolveError ExportedClass

namespace Offer

def class? : Offer → Option (String × ExportedClass)
  | (name, .ok c) => some (name, c)
  | (_, .error _) => none

theorem class?_eq (got : class? o = some (name, c)) : o = (name, .ok c) := by
  obtain ⟨other, result⟩ := o
  cases result with
  | ok d =>
    cases got
    rfl
  | error e => cases got

def failure? : Offer → Option (String × ResolveError)
  | (_, .ok _) => none
  | (name, .error e) => some (name, e)

-- A missing name is not offered.
def ofResolved (name : String) (via : Path) : Except ResolveError Symbol → Option Offer
  | .ok symbol => some (name, .ok { via, declaredName := symbol.name, declaredIn := symbol.file })
  | .error e => if e.isSymbolNotFound then none else some (name, .error e)

theorem ofResolved_name (offered : ofResolved name via result = some offer) : offer.1 = name := by
  cases result with
  | ok symbol =>
    cases offered
    rfl
  | error e =>
    rw [ofResolved] at offered
    split at offered
    · cases offered
    · cases offered
      rfl

end Offer

namespace IndexedFile

variable {σ : Type}

def ofClass (x : IndexedFile) (name : String) : Offer :=
  (name, .ok { via := x.1.path, declaredName := name, declaredIn := x.1.path })

-- A named re-export is resolved from the file that has it, as a class.
def ofReexport (p : Provider σ) (w : Work σ) (x : IndexedFile) (name : String) : Option Offer := do
  let (result, _) ← resolve p .classes (.of name x.1.path) w
  Offer.ofResolved name x.1.path result

def offers (p : Provider σ) (w : Work σ) (x : IndexedFile) : List Offer :=
  x.2.exportedClasses.keys.map x.ofClass ++ x.2.reexports.keys.filterMap (x.ofReexport p w)

end IndexedFile

theorem Ordered.insert_entries {α : Type} {m : Ordered α} (absent : key ∉ m.keys) (value : α) :
    (m.insert key value).entries = m.entries ++ [(key, value)] := by
  obtain ⟨entries⟩ := m
  change put key value entries = entries ++ [(key, value)]
  induction entries with
  | nil => rfl
  | cons entry rest ih =>
    obtain ⟨different, absent⟩ := not_or.mp fun either => absent (List.mem_cons.mpr either)
    rw [put, if_neg (Ne.symm different), ih absent, List.cons_append]

theorem Index.ofFile_eq (indexed : ofFile file = .ok index) : index = ofStatements file := by
  unfold ofFile at indexed
  split at indexed
  · cases indexed
  · exact (Except.ok.inj indexed).symm

def Outline.SourceFile.DeclaresClass (file : SourceFile) (name : String) : Prop :=
  ∃ statement ∈ file.statements, ∃ mode d, statement.form = .declaration mode (.classDecl d) ∧ d.name = name

theorem Index.declaresClass (exported : Bool)
    (listed : (name, .declared (.classDecl d)) ∈ (ofStatements file).view (.classes exported)) : file.DeclaresClass name := by
  rw [view_ofStatements, (Ordered.tabulates_ofList _).last] at listed
  obtain ⟨before, after, split, -⟩ := listed
  have binds : (name, .declared (.classDecl d)) ∈ bound file (.classes exported) := by simp [split]
  obtain ⟨⟨form, range⟩, member, here⟩ := List.mem_flatMap.mp binds
  obtain ⟨member, own⟩ := List.mem_filter.mp member
  cases form with
  | declaration mode declaration =>
    cases List.mem_singleton.mp here
    exact ⟨_, member, mode, d, rfl, rfl⟩
  | exportNamed specs source => cases source <;> cases of_decide_eq_true own
  | importFrom | exportNamespace | exportAll | anonymousDefaultClass | other => cases of_decide_eq_true own

namespace ExportList

def taken (l : ExportList) : List String := l.classes.keys ++ l.failed.map (·.1)

theorem isTaken_iff {l : ExportList} : l.isTaken name = true ↔ name ∈ l.taken := by
  rw [isTaken, Bool.or_eq_true, Ordered.contains, Ordered.get?_isSome_iff, taken, List.mem_append]
  simp

-- The first offer of a name settles it.
def offer (l : ExportList) (o : Offer) : ExportList :=
  if l.isTaken o.1 then l
  else
    match o.2 with
    | .ok c => l.insert o.1 c
    | .error e => l.fail o.1 e

theorem offer_taken {l : ExportList} (taken : l.isTaken o.1 = true) : l.offer o = l := by
  rw [offer, if_pos taken]

theorem offer_ok (l : ExportList) (name : String) (c : ExportedClass) : l.offer (name, .ok c) = l.insert name c := by
  cases free : l.isTaken name with
  | true => rw [offer_taken free, insert_taken free]
  | false => rw [offer, if_neg (ne_true_of_eq_false free)]

-- A name that is free is added behind the others, to the classes or to the failures.
theorem offer_free {l : ExportList} (free : o.1 ∉ l.taken) :
    (l.offer o).classes.entries = l.classes.entries ++ o.class?.toList ∧
      (l.offer o).failed = l.failed ++ o.failure?.toList := by
  have untaken : ¬l.isTaken o.1 = true := fun taken => free (isTaken_iff.mp taken)
  obtain ⟨name, result⟩ := o
  rw [offer, if_neg untaken]
  cases result with
  | ok c =>
    change (l.insert name c).classes.entries = _ ∧ (l.insert name c).failed = _
    rw [insert, if_neg untaken]
    refine ⟨Ordered.insert_entries (fun member => free (List.mem_append_left _ member)) c, ?_⟩
    exact (List.append_nil _).symm
  | error e => exact ⟨(List.append_nil _).symm, rfl⟩

theorem taken_offer {l : ExportList} (free : o.1 ∉ l.taken) : (l.offer o).taken.Perm (o.1 :: l.taken) := by
  obtain ⟨classes, failed⟩ := offer_free free
  obtain ⟨name, result⟩ := o
  rw [taken, Ordered.keys, classes, failed, taken, Ordered.keys]
  cases result with
  | ok c =>
    simp only [Offer.class?, Offer.failure?, Option.toList, List.append_nil, List.map_append, List.map_cons,
      List.map_nil, List.append_assoc]
    exact List.perm_middle
  | error e =>
    simp only [Offer.class?, Offer.failure?, Option.toList, List.append_nil, List.map_append, List.map_cons,
      List.map_nil, ← List.append_assoc]
    exact List.perm_append_singleton _ _

theorem mem_taken_offer {l : ExportList} {o : Offer} : name ∈ (l.offer o).taken ↔ name = o.1 ∨ name ∈ l.taken := by
  by_cases present : o.1 ∈ l.taken
  · rw [offer_taken (isTaken_iff.mpr present)]
    refine ⟨.inr, fun either => either.elim ?_ id⟩
    rintro rfl
    exact present
  · rw [(taken_offer present).mem_iff, List.mem_cons]

theorem foldl_offer (offers : List Offer) (l : ExportList) (same : ∀ name, name ∈ seen ↔ name ∈ l.taken) :
    (offers.foldl offer l).classes.entries =
        l.classes.entries ++ (firsts Prod.fst seen offers).filterMap Offer.class? ∧
      (offers.foldl offer l).failed = l.failed ++ (firsts Prod.fst seen offers).filterMap Offer.failure? := by
  induction offers generalizing l seen with
  | nil => simp [firsts]
  | cons o rest ih =>
    rw [List.foldl_cons, firsts]
    split
    · rename_i present
      rw [offer_taken (isTaken_iff.mpr ((same _).mp present))]
      exact ih l same
    · rename_i absent
      have free : o.1 ∉ l.taken := fun member => absent ((same _).mpr member)
      obtain ⟨classes, failed⟩ := offer_free free
      have same' : ∀ name, name ∈ o.1 :: seen ↔ name ∈ (l.offer o).taken := by
        intro name
        rw [mem_taken_offer, List.mem_cons, same]
      obtain ⟨classes', failed'⟩ := ih (l.offer o) same'
      rw [classes', failed', classes, failed, filterMap_cons_append, filterMap_cons_append]
      simp

theorem taken_nodup (offers : List Offer) {l : ExportList} (nodup : l.taken.Nodup) :
    (offers.foldl offer l).taken.Nodup := by
  induction offers generalizing l with
  | nil => exact nodup
  | cons o rest ih =>
    rw [List.foldl_cons]
    by_cases present : o.1 ∈ l.taken
    · rw [offer_taken (isTaken_iff.mpr present)]
      exact ih nodup
    · exact ih ((taken_offer present).nodup_iff.mpr (List.nodup_cons.mpr ⟨present, nodup⟩))

end ExportList

namespace Enumeration

variable {σ : Type} {p : Provider σ} {v : View} {w : Work σ}

theorem addClasses_eq_foldl (x : IndexedFile) (names : List String) (l : ExportList) :
    addClasses x.1.path names l = (names.map x.ofClass).foldl ExportList.offer l := by
  induction names generalizing l with
  | nil => rfl
  | cons name rest ih => rw [addClasses_cons, ih, List.map_cons, List.foldl_cons, IndexedFile.ofClass, ExportList.offer_ok]

theorem settle_eq_foldl (free : l.isTaken name = false) (path : Path) (result : Except ResolveError Symbol) :
    settle l name path result = (Offer.ofResolved name path result).toList.foldl ExportList.offer l := by
  cases result with
  | ok symbol => exact (ExportList.offer_ok _ _ _).symm
  | error e =>
    rw [settle, Offer.ofResolved]
    split
    · rfl
    · exact (if_neg (ne_true_of_eq_false free)).symm

theorem Reexported.eq_foldl (shows : p.Shows within v) (known : within w.state) {x : IndexedFile}
    (reexported : Reexported v x.1.path names l notes l') :
    l' = (names.filterMap (x.ofReexport p w)).foldl ExportList.offer l := by
  induction reexported with
  | done => rfl
  | @taken name names l notes l' taken rest ih =>
    rw [filterMap_cons_append, List.foldl_append]
    cases offered : x.ofReexport p w name with
    | none => exact ih
    | some o =>
      obtain ⟨_, _, offered⟩ := Option.bind_eq_some_iff.mp offered
      obtain rfl := Offer.ofResolved_name offered
      rw [Option.toList, List.foldl_cons, List.foldl_nil, ExportList.offer_taken taken]
      exact ih
  | @tried name names l result after notes notes' l' free searched rest ih =>
    obtain ⟨_, resolved, -, -⟩ := searched_resolve shows known searched
    have offered : x.ofReexport p w name = Offer.ofResolved name x.1.path result := by
      rw [IndexedFile.ofReexport, resolved]
      rfl
    rw [filterMap_cons_append, List.foldl_append, offered, ← settle_eq_foldl free]
    exact ih

theorem Scanned.eq_foldl (shows : p.Shows within v) (known : within w.state) (scanned : Scanned v files l notes l') :
    l' = (files.flatMap (IndexedFile.offers p w)).foldl ExportList.offer l := by
  induction scanned with
  | done => rfl
  | file own _ ih =>
    rw [List.flatMap_cons, List.foldl_append, IndexedFile.offers, List.foldl_append, ← addClasses_eq_foldl,
      ← own.eq_foldl shows known]
    exact ih

theorem reexported_total (coherent : v.Coherent) (finite : v.places.Finite) (path : Path) (names : List String)
    (l : ExportList) : ∃ notes l', Reexported v path names l notes l' := by
  induction names generalizing l with
  | nil => exact ⟨_, _, .done⟩
  | cons name rest ih =>
    cases free : l.isTaken name with
    | true =>
      obtain ⟨notes, l', later⟩ := ih l
      exact ⟨notes, l', .taken free later⟩
    | false =>
      obtain ⟨result, after, notes, searched⟩ := View.resolves_total coherent finite .classes (.of name path)
      obtain ⟨notes', l', later⟩ := ih (settle l name path result)
      exact ⟨_, l', .tried free searched later⟩

def Ends (v : View) (task : Task) (before : List (List Path.Component)) (l : ExportList) : Prop :=
  ∃ notes after l', Collected v task before l notes after l'

theorem targets_end (path : Path) (targets : List Target) (l : ExportList)
    (visits : ∀ later, before ⊆ later → ∀ target l, Ends v (.visit target) later l) :
    Ends v (.targets path targets) before l := by
  induction targets generalizing before l with
  | nil => exact ⟨_, _, _, .done⟩
  | cons target rest ih =>
    cases target with
    | package package =>
      obtain ⟨notes, after, l', later⟩ := ih l visits
      exact ⟨_, _, _, .package later⟩
    | file target =>
      obtain ⟨notes, between, middle, first⟩ := visits before (List.Subset.refl _) target l
      obtain ⟨notes', after, l', later⟩ := ih middle fun later more =>
        visits later (List.Subset.trans first.subset more)
      exact ⟨_, _, _, .file first later⟩

-- Every file is entered once, so an enumeration of finitely many files ends.
theorem file_ends (coherent : v.Coherent) (finite : v.places.Finite) (shown : v path = .ok (file, index))
    (before : List (List Path.Component)) (l : ExportList) : Ends v (.file file.path index) before l := by
  induction measure : unused finite.toFinset before using Nat.strongRecOn generalizing path file index before l with
  | _ n ih =>
    by_cases seen : file.path.components ∈ before
    · exact ⟨_, _, _, .again seen⟩
    · have fewer := unused_cons_lt (finite.mem_toFinset.mpr ⟨path, file, index, shown, rfl⟩) seen
      obtain ⟨notes, middle, own⟩ := reexported_total coherent finite file.path index.reexports.keys
        (addClasses file.path index.exportedClasses.keys l)
      obtain ⟨notes', after, l', rest⟩ := targets_end file.path index.wildcards middle fun later more target l => by
        cases shown' : v target with
        | error e => exact ⟨_, _, _, .unreadable shown'⟩
        | ok answer =>
          obtain ⟨_, _, _, deeper⟩ :=
            ih _ (measure ▸ Nat.lt_of_le_of_lt (unused_le more) fewer) shown' later l rfl
          exact ⟨_, _, _, .opened shown' deeper⟩
      exact ⟨_, _, _, .entered seen own rest⟩

end Enumeration

variable {σ : Type} {p : Provider σ} {w : Work σ}

def Provider.HasClass (p : Provider σ) (state : σ) (place : Path) (name : String) : Prop :=
  ∃ path file, (p.load path state).result = .ok file ∧ file.path = place ∧ file.DeclaresClass name

theorem Provider.hasClass {x : Place} (holds : (p.view state).Holds x)
    (here : x.declaration? .classes = some declaration) : p.HasClass state x.file.path x.name := by
  obtain ⟨path, shown⟩ := holds
  obtain ⟨loaded, indexed⟩ := opened_ok shown
  refine ⟨path, x.file, loaded, rfl, ?_⟩
  rw [Place.declaration?, Index.ofFile_eq indexed] at here
  obtain ⟨d, -, found⟩ | ⟨-, -, interfaces, -⟩ | ⟨types, -⟩ := Index.local?_cases here
  · rcases Option.or_eq_some_iff.mp found with exported | ⟨-, inner⟩
    · exact Index.declaresClass true (List.mem_map_of_mem (Ordered.mem_of_get? exported))
    · exact Index.declaresClass false (List.mem_map_of_mem (Ordered.mem_of_get? inner))
  · cases interfaces
  · cases types

theorem IndexedFile.offers_hasClass (consistent : p.Consistent w.state) {x : IndexedFile}
    (has : (p.view w.state).Has x) (member : (name, .ok c) ∈ x.offers p w) :
    p.HasClass w.state c.declaredIn c.declaredName := by
  rcases List.mem_append.mp member with exported | reexported
  · obtain ⟨other, listed, equal⟩ := List.mem_map.mp exported
    cases equal
    obtain ⟨d, here⟩ := Enumeration.exported_declaration? (x := ⟨x.1, x.2, name⟩) listed
    have holds : (p.view w.state).Holds ⟨x.1, x.2, name⟩ := has
    exact Provider.hasClass holds here
  · obtain ⟨other, -, offered⟩ := List.mem_filterMap.mp reexported
    obtain ⟨⟨result, work⟩, resolved, offered⟩ := Option.bind_eq_some_iff.mp offered
    cases result with
    | error e =>
      dsimp only [Offer.ofResolved] at offered
      split at offered <;> cases offered
    | ok symbol =>
      cases offered
      obtain ⟨-, resolves⟩ := resolve_sound consistent.shows .refl resolved
      obtain ⟨y, declaration, -, holds, here, rfl⟩ := resolves.first consistent.coherent
      exact Provider.hasClass holds here

-- An enumeration fails exactly when the entry cannot be opened. Else it lists the files that the entry
-- forwards as the plain walk meets them, and each name that they offer goes to its first offer.
theorem exportedClasses_offers (consistent : p.Consistent w.state) (finite : p.FiniteFiles w.state) (entry : Path) :
    ∃ result w', exportedClasses p entry w = some (result, w') ∧
      (∀ e, result = .error e ↔ p.view w.state entry = .error e) ∧
      ∀ l, result = .ok l → ∃ start tour files offered, p.view w.state entry = .ok start ∧
        (∀ other, (p.view w.state).Tour [] [start] other ↔ other = tour) ∧
        files = firsts IndexedFile.place [] tour ∧
        (∀ x, x ∈ files ↔ (p.view w.state).Forwards start x) ∧ (files.map IndexedFile.place).Nodup ∧
        offered = firsts Prod.fst [] (files.flatMap (IndexedFile.offers p w)) ∧
        l.classes.entries = offered.filterMap Offer.class? ∧ l.failed = offered.filterMap Offer.failure? ∧
        (∀ name c, (name, c) ∈ l.classes.entries → p.HasClass w.state c.declaredIn c.declaredName) ∧
        (l.classes.keys ++ l.failed.map (·.1)).Nodup := by
  have shows := consistent.shows
  have coherent := consistent.coherent
  cases shown : p.view w.state entry with
  | error e =>
    obtain ⟨w', enumerated⟩ := exportedClasses_unreadable (w := w) shows .refl shown
    exact ⟨_, w', enumerated, fun _ => by rw [Except.error.injEq, Except.error.injEq], nofun⟩
  | ok start =>
    obtain ⟨notes, after, l, collected⟩ :=
      Enumeration.file_ends coherent finite.places_finite shown [] .empty
    obtain ⟨w', enumerated, -⟩ := collected_exportedClasses (w := w) shows .refl shown collected
    refine ⟨_, w', enumerated, fun _ => ⟨nofun, nofun⟩, ?_⟩
    rintro _ ⟨⟩
    have has : (p.view w.state).Has start := ⟨entry, shown⟩
    obtain ⟨files, own, scanned, -, toured⟩ := collected.scanned coherent ⟨start, has, rfl, rfl, rfl⟩
    obtain ⟨-, tour, walked, order⟩ := toured.order [] .start
    have flat := scanned.eq_foldl shows .refl
    have untaken : ∀ name, name ∈ ([] : List String) ↔ name ∈ ExportList.empty.taken := fun _ => Iff.rfl
    obtain ⟨classes, failed⟩ := ExportList.foldl_offer (files.flatMap (IndexedFile.offers p w)) .empty untaken
    rw [← flat] at classes failed
    refine ⟨start, tour, files, _, rfl, fun other => ⟨fun walked' => walked'.unique walked, ?_⟩, order.symm,
      fun x => toured.mem_iff coherent has, order ▸ firsts_nodup _ _ _, rfl, classes, failed, ?_, ?_⟩
    · rintro rfl
      exact walked
    · intro name c listed
      rw [classes] at listed
      obtain ⟨offer, member, equal⟩ := List.mem_filterMap.mp listed
      obtain rfl := Offer.class?_eq equal
      obtain ⟨x, inside, offers⟩ := List.mem_flatMap.mp (mem_of_mem_firsts member)
      exact IndexedFile.offers_hasClass consistent (((toured.mem_iff coherent has).mp inside).has has) offers
    · exact flat ▸ ExportList.taken_nodup _ List.nodup_nil

theorem exportedClasses_offers_barrels : ∃ l w',
    exportedClasses (.ofFiles [barrel, stocked]) ⟨"a.ts"⟩ (.start ()) = some (.ok l, w') ∧
      l.classes.entries = [("Widget", { via := ⟨"b.ts"⟩, declaredName := "Widget", declaredIn := ⟨"b.ts"⟩ })] ∧
      l.failed = [] := by
  let v := (Provider.ofFiles [barrel, stocked]).view ()
  let one : IndexedFile := (barrel, .ofStatements barrel)
  let two : IndexedFile := (stocked, .ofStatements stocked)
  have first : v ⟨"a.ts"⟩ = .ok one := Provider.ofFiles_view (by decide +kernel) (by decide +kernel)
  have second : v ⟨"b.ts"⟩ = .ok two := Provider.ofFiles_view (by decide +kernel) (by decide +kernel)
  have onward : v.forwarded one = [two] := by
    have ways : one.2.wildcards = [.file ⟨"b.ts"⟩] := by decide +kernel
    rw [View.forwarded, ways, filterMap_cons_append, View.open?, second]
    rfl
  have back : v.forwarded two = [one] := by
    have ways : two.2.wildcards = [.file ⟨"a.ts"⟩] := by decide +kernel
    rw [View.forwarded, ways, filterMap_cons_append, View.open?, first]
    rfl
  -- The walk goes into the second file and from there finds itself on its trail.
  have returned : v.Tour [two.place, one.place] (v.forwarded two) [] := by
    rw [back]
    exact .blocked (by decide +kernel) .done
  have entered : v.Tour [one.place] (v.forwarded one) [two] := by
    rw [onward]
    exact .through (by decide +kernel) returned .done
  have walked : v.Tour [] [one] [one, two] := .through List.not_mem_nil entered .done
  obtain ⟨result, w', enumerated, failure, listed⟩ := exportedClasses_offers (w := .start ())
    (Provider.ofFiles_consistent [barrel, stocked]) (Provider.ofFiles_finite _) ⟨"a.ts"⟩
  cases result with
  | error e =>
    have broken : v ⟨"a.ts"⟩ = .error e := (failure e).mp rfl
    rw [first] at broken
    cases broken
  | ok l =>
    obtain ⟨start, tour, files, offered, shown, only, rfl, -, -, rfl, classes, failed, -⟩ := listed l rfl
    obtain rfl : one = start := Except.ok.inj (first.symm.trans shown)
    obtain rfl := (only _).mp walked
    refine ⟨l, w', enumerated, classes.trans (by decide +kernel), ?_⟩
    rw [failed, ← List.isEmpty_iff]
    decide +kernel

end ComponentAtlas
