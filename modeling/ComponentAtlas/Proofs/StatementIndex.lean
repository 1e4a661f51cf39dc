import ComponentAtlas.Index
import ComponentAtlas.Proofs.ExportList
import ComponentAtlas.Proofs.OrderedMaps
import ComponentAtlas.Proofs.SearchEnds
import Mathlib.Data.List.Basic

namespace ComponentAtlas
open Outline

namespace Ordered

variable {α β : Type}

-- A list of bindings as a table: the names in the order in which they come up, each with what it is bound to last.
structure Tabulates (bound entries : List (String × α)) : Prop where
  names : entries.map (·.1) = (bound.map (·.1)).eraseDups
  last : ∀ name value, (name, value) ∈ entries ↔
    ∃ before after, bound = before ++ (name, value) :: after ∧ name ∉ after.map (·.1)

def merge (m m' : Ordered α) : Ordered α :=
  ⟨m.entries.map (fun entry => (entry.1, (m'.get? entry.1).getD entry.2)) ++ m'.entries.filter (·.1 ∉ m.keys)⟩

theorem entries_of_nodup {m : Ordered α} (distinct : m.keys.Nodup) :
    m.entries = m.keys.filterMap fun name => (m.get? name).map (Prod.mk name) := by
  have each : ∀ entry ∈ m.entries, (m.get? entry.1).map (Prod.mk entry.1) = some entry := by
    intro entry member
    rw [get?_of_mem distinct member]
    rfl
  rw [keys, List.filterMap_map]
  exact (List.filterMap_some.symm).trans (List.filterMap_congr fun entry member => (each entry member).symm)

theorem eq_of_get? {m m' : Ordered α} (distinct : m.keys.Nodup) (names : m.keys = m'.keys)
    (values : ∀ name, m.get? name = m'.get? name) : m = m' := by
  have entries : m.entries = m'.entries := by
    rw [entries_of_nodup distinct, entries_of_nodup (names ▸ distinct), names]
    exact List.filterMap_congr fun name _ => by rw [values]
  obtain ⟨_⟩ := m
  obtain ⟨_⟩ := m'
  exact congrArg mk entries

theorem lookup_reverse_iff {bound : List (String × α)} :
    bound.reverse.lookup name = some value ↔
      ∃ before after, bound = before ++ (name, value) :: after ∧ name ∉ after.map (·.1) := by
  rw [List.lookup_eq_some_iff]
  constructor
  · rintro ⟨after, before, split, free⟩
    refine ⟨before.reverse, after.reverse, by simpa using congrArg List.reverse split, ?_⟩
    intro member
    obtain ⟨entry, inside, named⟩ := List.mem_map.mp member
    have differs := free entry (List.mem_reverse.mp inside)
    simp [named] at differs
  · rintro ⟨before, after, rfl, free⟩
    refine ⟨after.reverse, before.reverse, by simp, ?_⟩
    intro entry member
    refine bne_iff_ne.mpr fun same => free ?_
    rw [same]
    exact List.mem_map_of_mem (List.mem_reverse.mp member)

theorem tabulates_ofList (bound : List (String × α)) : Tabulates bound (ofList bound).entries where
  names := keys_ofList bound
  last name value := by
    rw [← lookup_reverse_iff, ← get?_ofList]
    constructor
    · exact get?_of_mem (ofList_nodup bound)
    · exact mem_of_get?

-- A table has nothing of its own.
theorem Tabulates.unique {bound entries : List (String × α)} (table : Tabulates bound entries) :
    entries = (ofList bound).entries := by
  have distinct : (⟨entries⟩ : Ordered α).keys.Nodup := by
    rw [keys, table.names, ← keys_ofList]
    exact ofList_nodup bound
  have same : (⟨entries⟩ : Ordered α) = ofList bound := by
    refine eq_of_get? distinct (table.names.trans (keys_ofList bound).symm) fun name => ?_
    have member : ∀ value, (name, value) ∈ entries ↔ (ofList bound).get? name = some value := by
      intro value
      rw [table.last, get?_ofList, lookup_reverse_iff]
    cases found : (ofList bound).get? name with
    | some value => exact get?_of_mem distinct ((member value).mpr found)
    | none =>
      refine get?_eq_none_iff.mpr fun inside => ?_
      obtain ⟨⟨_, value⟩, listed, rfl⟩ := List.mem_map.mp inside
      simp [found] at member
      exact member value listed
  exact congrArg Ordered.entries same

theorem map_put (f : α → β) (key : String) (value : α) (entries : List (String × α)) :
    (put key value entries).map (Prod.map id f) = put key (f value) (entries.map (Prod.map id f)) := by
  induction entries with
  | nil => rfl
  | cons entry rest ih =>
    obtain ⟨own, old⟩ := entry
    rw [put, List.map_cons, Prod.map_apply, id, put]
    split
    · rfl
    · rw [List.map_cons, ih]
      rfl

theorem insertAll_append (m : Ordered α) (pairs more : List (String × α)) :
    m.insertAll (pairs ++ more) = (m.insertAll pairs).insertAll more :=
  List.foldl_append

-- Values may be made into others before they are put in.
theorem map_insertAll (f : α → β) (m : Ordered α) (pairs : List (String × α)) :
    (m.insertAll pairs).entries.map (Prod.map id f) =
      ((⟨m.entries.map (Prod.map id f)⟩ : Ordered β).insertAll (pairs.map (Prod.map id f))).entries := by
  induction pairs generalizing m with
  | nil => rfl
  | cons pair rest ih =>
    have first := map_put f pair.1 pair.2 m.entries
    rw [List.map_cons, insertAll, List.foldl_cons]
    refine (ih (m.insert pair.1 pair.2)).trans ?_
    rw [insert, first]
    rfl

theorem keys_merge (m m' : Ordered α) : (m.merge m').keys = m.keys ++ m'.keys.filter (· ∉ m.keys) := by
  simp [merge, keys, List.filter_map, Function.comp_def]

theorem lookup_filter (names : List String) (entries : List (String × α)) (name : String) :
    (entries.filter (·.1 ∉ names)).lookup name = if name ∈ names then none else entries.lookup name := by
  induction entries with
  | nil => simp
  | cons entry rest ih =>
    obtain ⟨own, value⟩ := entry
    rw [List.filter_cons, List.lookup_cons]
    by_cases here : name = own
    · subst here
      by_cases known : name ∈ names
      · simpa [known] using ih
      · simp [known]
    · have differs : (name == own) = false := beq_eq_false_iff_ne.mpr here
      by_cases known : own ∈ names
      · simpa [known, differs] using ih
      · simpa [known, differs, List.lookup_cons] using ih

theorem get?_merge (m m' : Ordered α) (name : String) : (m.merge m').get? name = (m'.get? name).or (m.get? name) := by
  have kept : (m.entries.map fun entry => (entry.1, (m'.get? entry.1).getD entry.2)).lookup name =
      (m.get? name).map ((m'.get? name).getD ·) := by
    rw [get?.eq_1 m]
    induction m.entries with
    | nil => rfl
    | cons entry rest ih =>
      rw [List.map_cons, List.lookup_cons, List.lookup_cons, ih]
      by_cases here : name = entry.1
      · simp [here, get?]
      · simp [beq_eq_false_iff_ne.mpr here]
  rw [get?.eq_1 (m.merge m'), merge, List.lookup_append, kept, lookup_filter]
  change (Option.map _ _).or (if _ then none else m'.get? name) = _
  by_cases known : name ∈ m.keys
  · obtain ⟨value, found⟩ := Option.isSome_iff_exists.mp (get?_isSome_iff.mpr known)
    cases m'.get? name <;> simp [known, found]
  · simp [known, get?_eq_none_iff.mpr known]

theorem map_merge (f : α → β) (m m' : Ordered α) :
    (m.merge m').entries.map (Prod.map id f) =
      ((⟨m.entries.map (Prod.map id f)⟩ : Ordered β).merge ⟨m'.entries.map (Prod.map id f)⟩).entries := by
  have found (name : String) : (m'.entries.map (Prod.map id f)).lookup name = (m'.entries.lookup name).map f := by
    induction m'.entries with
    | nil => rfl
    | cons entry rest ih =>
      rw [List.map_cons, Prod.map_apply', id, List.lookup_cons, List.lookup_cons, ih]
      cases name == entry.1 <;> rfl
  have names : keys ⟨m.entries.map (Prod.map id f)⟩ = m.keys := by
    rw [keys, keys, List.map_map]
    rfl
  unfold merge
  rw [List.map_append, names, List.map_map, List.map_map, List.filter_map]
  congr 1
  refine List.map_congr_left fun entry _ => ?_
  dsimp only [Function.comp, Prod.map, id, get?]
  rw [found, Option.getD_map]

theorem ofList_append (bound more : List (String × α)) :
    ofList (bound ++ more) = (ofList bound).merge (ofList more) := by
  refine eq_of_get? (ofList_nodup _) ?_ fun name => ?_
  · rw [keys_merge]
    induction more using List.reverseRecOn with
    | nil => simp [ofList, insertAll, empty, keys]
    | append_singleton more pair ih =>
      rw [← List.append_assoc, ofList_concat, keys_insert, ih, ofList_concat, keys_insert]
      by_cases known : pair.1 ∈ (ofList bound).keys
      · by_cases repeated : pair.1 ∈ (ofList more).keys
        · simp [known, repeated]
        · simp [known, repeated]
      · by_cases repeated : pair.1 ∈ (ofList more).keys
        · simp [known, repeated]
        · simp [known, repeated]
  · rw [get?_merge, get?_ofList, get?_ofList, get?_ofList, List.reverse_append, List.lookup_append]

end Ordered

namespace Index

inductive Table where
  | classes (exported : Bool)
  | interfaces (exported : Bool)
  | aliases (exported : Bool)
  | enums (exported : Bool)
  | imports
  | reexports
  | localExports
  | namespaces
deriving DecidableEq

inductive Meaning where
  | declared (decl : Declaration)
  | bound (binding : Binding)
  | known (name : String)
  | module (target : Target)

def tableOf (s : Statement) : Option Table :=
  match s.form with
  | .declaration mode (.classDecl _) => some (.classes mode.isExported)
  | .declaration mode (.interfaceDecl _) => some (.interfaces mode.isExported)
  | .declaration mode (.aliasDecl _) => some (.aliases mode.isExported)
  | .declaration mode (.enumDecl _) => some (.enums mode.isExported)
  | .importFrom _ => some .imports
  | .exportNamed _ (some _) => some .reexports
  | .exportNamed _ none => some .localExports
  | .exportNamespace _ _ => some .namespaces
  | .exportAll _ | .anonymousDefaultClass | .other _ => none

def bindings (path : Path) (s : Statement) : List (String × Meaning) :=
  match s.form with
  | .declaration _ decl => [(decl.name, .declared decl)]
  | .importFrom binding =>
    binding.specifiers.map fun spec => (spec.localName, .bound ⟨spec.name, .ofSpecifier binding.source path⟩)
  | .exportNamed specs (some source) =>
    specs.map fun spec => (spec.exportedName, .bound ⟨spec.name, .ofSpecifier source path⟩)
  | .exportNamed specs none => specs.map fun spec => (spec.exportedName, .known spec.name)
  | .exportNamespace otherName source => [(otherName, .module (.ofSpecifier source path))]
  | .exportAll _ | .anonymousDefaultClass | .other _ => []

def wildcardOf (path : Path) (s : Statement) : Option Target :=
  match s.form with
  | .exportAll source => some (.ofSpecifier source path)
  | _ => none

def bound (file : SourceFile) (table : Table) : List (String × Meaning) :=
  (file.statements.filter (tableOf · = some table)).flatMap (bindings file.path)

def view (index : Index) : Table → List (String × Meaning)
  | .classes true => index.exportedClasses.entries.map (Prod.map id (.declared ∘ .classDecl))
  | .classes false => index.declaredClasses.entries.map (Prod.map id (.declared ∘ .classDecl))
  | .interfaces true => index.exportedInterfaces.entries.map (Prod.map id (.declared ∘ .interfaceDecl))
  | .interfaces false => index.declaredInterfaces.entries.map (Prod.map id (.declared ∘ .interfaceDecl))
  | .aliases true => index.exportedAliases.entries.map (Prod.map id (.declared ∘ .aliasDecl))
  | .aliases false => index.declaredAliases.entries.map (Prod.map id (.declared ∘ .aliasDecl))
  | .enums true => index.exportedEnums.entries.map (Prod.map id (.declared ∘ .enumDecl))
  | .enums false => index.declaredEnums.entries.map (Prod.map id (.declared ∘ .enumDecl))
  | .imports => index.imports.entries.map (Prod.map id .bound)
  | .reexports => index.reexports.entries.map (Prod.map id .bound)
  | .localExports => index.localExports.entries.map (Prod.map id .known)
  | .namespaces => index.namespaces.entries.map (Prod.map id .module)

-- Every table has what the statements bind in it, and the wildcards are those of the statements.
structure Lists (index : Index) (file : SourceFile) : Prop where
  tables : ∀ table, Ordered.Tabulates (bound file table) (index.view table)
  wildcards : index.wildcards = file.statements.filterMap (wildcardOf file.path)

-- Table by table; of two meanings of a name the later index has the right one.
def merge (index index' : Index) : Index :=
  { exportedClasses := index.exportedClasses.merge index'.exportedClasses
    exportedInterfaces := index.exportedInterfaces.merge index'.exportedInterfaces
    exportedAliases := index.exportedAliases.merge index'.exportedAliases
    exportedEnums := index.exportedEnums.merge index'.exportedEnums
    declaredClasses := index.declaredClasses.merge index'.declaredClasses
    declaredInterfaces := index.declaredInterfaces.merge index'.declaredInterfaces
    declaredAliases := index.declaredAliases.merge index'.declaredAliases
    declaredEnums := index.declaredEnums.merge index'.declaredEnums
    imports := index.imports.merge index'.imports
    reexports := index.reexports.merge index'.reexports
    wildcards := index.wildcards ++ index'.wildcards
    localExports := index.localExports.merge index'.localExports
    namespaces := index.namespaces.merge index'.namespaces }

variable {file : SourceFile}

-- A statement binds its names in its own table, behind what is there, and leaves the others as they are.
theorem view_add_own (path : Path) (index : Index) {s : Statement} (own : tableOf s = some table) :
    (index.add path s).view table = ((⟨index.view table⟩ : Ordered Meaning).insertAll (bindings path s)).entries := by
  obtain ⟨form, range⟩ := s
  cases form with
  | declaration mode decl =>
    cases decl with
    | classDecl | interfaceDecl | aliasDecl | enumDecl => cases mode <;> cases own <;> exact Ordered.map_put _ _ _ _
  | importFrom binding =>
    cases own
    refine (Ordered.map_insertAll _ _ _).trans ?_
    rw [List.map_map]
    rfl
  | exportNamed specs source =>
    cases source with
    | some _ | none =>
      cases own
      refine (Ordered.map_insertAll _ _ _).trans ?_
      rw [List.map_map]
      rfl
  | exportNamespace otherName source =>
    cases own
    exact Ordered.map_put _ _ _ _
  | exportAll | anonymousDefaultClass | other => cases own

theorem view_add_other (path : Path) (index : Index) {s : Statement} (other : tableOf s ≠ some table) :
    (index.add path s).view table = index.view table := by
  obtain ⟨form, range⟩ := s
  rcases table with (_ | _) | (_ | _) | (_ | _) | (_ | _) | _ | _ | _ | _
  all_goals
    cases form with
    | declaration mode decl => cases mode <;> cases decl <;> first | rfl | exact absurd rfl other
    | exportNamed specs source => cases source <;> first | rfl | exact absurd rfl other
    | importFrom | exportNamespace | exportAll | anonymousDefaultClass | other => first | rfl | exact absurd rfl other

theorem wildcards_add (path : Path) (index : Index) (s : Statement) :
    (index.add path s).wildcards = index.wildcards ++ (wildcardOf path s).toList := by
  obtain ⟨form, range⟩ := s
  cases form with
  | declaration mode decl => cases mode <;> cases decl <;> exact (List.append_nil _).symm
  | exportNamed specs source => cases source <;> exact (List.append_nil _).symm
  | exportAll => rfl
  | importFrom | exportNamespace | anonymousDefaultClass | other => exact (List.append_nil _).symm

theorem view_foldl (path : Path) (statements : List Statement) (index : Index) (table : Table) :
    (statements.foldl (add path) index).view table = ((⟨index.view table⟩ : Ordered Meaning).insertAll
      ((statements.filter (tableOf · = some table)).flatMap (bindings path))).entries := by
  induction statements generalizing index with
  | nil => rfl
  | cons s rest ih =>
    rw [List.foldl_cons, ih, List.filter_cons]
    by_cases own : tableOf s = some table
    · rw [view_add_own path index own, if_pos (decide_eq_true own), List.flatMap_cons, Ordered.insertAll_append]
    · rw [view_add_other path index own, if_neg (by simpa using own)]

theorem view_ofStatements (file : SourceFile) (table : Table) :
    (ofStatements file).view table = (Ordered.ofList (bound file table)).entries := by
  have nothing : empty.view table = [] := by
    rcases table with (_ | _) | (_ | _) | (_ | _) | (_ | _) | _ | _ | _ | _ <;> rfl
  rw [ofStatements, view_foldl, nothing]
  rfl

theorem wildcards_ofStatements (file : SourceFile) :
    (ofStatements file).wildcards = file.statements.filterMap (wildcardOf file.path) := by
  have run (index : Index) : (file.statements.foldl (add file.path) index).wildcards =
      index.wildcards ++ file.statements.filterMap (wildcardOf file.path) := by
    rw [List.filterMap_eq_flatMap_toList]
    induction file.statements generalizing index with
    | nil => exact (List.append_nil _).symm
    | cons s rest ih => rw [List.foldl_cons, ih, wildcards_add, List.append_assoc, List.flatMap_cons]
  exact run empty

theorem lists_ofStatements (file : SourceFile) : (ofStatements file).Lists file where
  tables table := view_ofStatements file table ▸ Ordered.tabulates_ofList (bound file table)
  wildcards := wildcards_ofStatements file

theorem eq_of_view {index index' : Index} (tables : ∀ table, index.view table = index'.view table)
    (wildcards : index.wildcards = index'.wildcards) : index = index' := by
  have same {α : Type} {m m' : Ordered α} {means : α → Meaning} (injective : Function.Injective means)
      (equal : m.entries.map (Prod.map id means) = m'.entries.map (Prod.map id means)) : m = m' := by
    obtain ⟨entries⟩ := m
    obtain ⟨entries'⟩ := m'
    exact congrArg Ordered.mk (List.map_injective_iff.mpr (Function.injective_id.prodMap injective) equal)
  obtain ⟨ec, ei, ea, ee, dc, di, da, de, im, re, w, le, na⟩ := index
  obtain ⟨ec', ei', ea', ee', dc', di', da', de', im', re', w', le', na'⟩ := index'
  obtain rfl : ec = ec' := same (fun _ _ e => by cases e; rfl) (tables (.classes true))
  obtain rfl : ei = ei' := same (fun _ _ e => by cases e; rfl) (tables (.interfaces true))
  obtain rfl : ea = ea' := same (fun _ _ e => by cases e; rfl) (tables (.aliases true))
  obtain rfl : ee = ee' := same (fun _ _ e => by cases e; rfl) (tables (.enums true))
  obtain rfl : dc = dc' := same (fun _ _ e => by cases e; rfl) (tables (.classes false))
  obtain rfl : di = di' := same (fun _ _ e => by cases e; rfl) (tables (.interfaces false))
  obtain rfl : da = da' := same (fun _ _ e => by cases e; rfl) (tables (.aliases false))
  obtain rfl : de = de' := same (fun _ _ e => by cases e; rfl) (tables (.enums false))
  obtain rfl : im = im' := same (fun _ _ e => by cases e; rfl) (tables .imports)
  obtain rfl : re = re' := same (fun _ _ e => by cases e; rfl) (tables .reexports)
  obtain rfl : le = le' := same (fun _ _ e => by cases e; rfl) (tables .localExports)
  obtain rfl : na = na' := same (fun _ _ e => by cases e; rfl) (tables .namespaces)
  obtain rfl : w = w' := wildcards
  rfl

theorem lists_iff {index : Index} : index.Lists file ↔ index = ofStatements file := by
  constructor
  · intro lists
    refine eq_of_view (fun table => ?_) (lists.wildcards.trans (wildcards_ofStatements file).symm)
    rw [(lists.tables table).unique, view_ofStatements]
  · rintro rfl
    exact lists_ofStatements file

theorem view_merge (index index' : Index) (table : Table) :
    (index.merge index').view table = ((⟨index.view table⟩ : Ordered Meaning).merge ⟨index'.view table⟩).entries := by
  rcases table with (_ | _) | (_ | _) | (_ | _) | (_ | _) | _ | _ | _ | _ <;> exact Ordered.map_merge _ _ _

theorem ofStatements_append (path : Path) (first second : List Statement) :
    ofStatements ⟨path, first ++ second⟩ = (ofStatements ⟨path, first⟩).merge (ofStatements ⟨path, second⟩) := by
  refine eq_of_view (fun table => ?_) ?_
  · have joined : bound ⟨path, first ++ second⟩ table = bound ⟨path, first⟩ table ++ bound ⟨path, second⟩ table := by
      simp [bound]
    rw [view_merge, view_ofStatements, view_ofStatements, view_ofStatements, joined, Ordered.ofList_append]
  · simp [wildcards_ofStatements, merge]

-- A statement in the midst of others counts in its own table only.
theorem view_elsewhere (path : Path) (before after : List Statement) {s : Statement} {table : Table}
    (other : tableOf s ≠ some table) :
    (ofStatements ⟨path, before ++ s :: after⟩).view table = (ofStatements ⟨path, before ++ after⟩).view table := by
  have same : bound ⟨path, before ++ s :: after⟩ table = bound ⟨path, before ++ after⟩ table := by
    simp [bound, other]
  rw [view_ofStatements, view_ofStatements, same]

theorem wildcards_elsewhere (path : Path) (before after : List Statement) {s : Statement}
    (other : wildcardOf path s = none) :
    (ofStatements ⟨path, before ++ s :: after⟩).wildcards = (ofStatements ⟨path, before ++ after⟩).wildcards := by
  simp [wildcards_ofStatements, other]

theorem isAnonymous_iff {s : Statement} : isAnonymous s = true ↔ s.form = .anonymousDefaultClass := by
  unfold isAnonymous
  split <;> simp_all

theorem find?_isAnonymous_none : file.statements.find? isAnonymous = none ↔
    ∀ s ∈ file.statements, s.form ≠ .anonymousDefaultClass := by
  rw [List.find?_eq_none]
  exact forall₂_congr fun s _ => isAnonymous_iff.not

theorem ofFile_error_iff {e : ResolveError} : ofFile file = .error e ↔
    ∃ before s after, file.statements = before ++ s :: after ∧ s.form = .anonymousDefaultClass ∧
      (∀ t ∈ before, t.form ≠ .anonymousDefaultClass) ∧
      e = .malformedExport file.path s.range.line s.range.column "exported class has no name" := by
  unfold ofFile
  constructor
  · intro failed
    cases found : file.statements.find? isAnonymous with
    | none => simp [found] at failed
    | some s =>
      obtain ⟨nameless, before, after, split, earlier⟩ := List.find?_eq_some_iff_append.mp found
      refine ⟨before, s, after, split, isAnonymous_iff.mp nameless, ?_, ?_⟩
      · intro t member nameless'
        simpa [isAnonymous_iff.mpr nameless'] using earlier t member
      · simpa [found] using failed.symm
  · rintro ⟨before, s, after, split, nameless, earlier, rfl⟩
    have found : file.statements.find? isAnonymous = some s := by
      refine List.find?_eq_some_iff_append.mpr ⟨isAnonymous_iff.mpr nameless, before, after, split, ?_⟩
      intro t member
      simpa [← isAnonymous_iff] using earlier t member
    simp [found]

theorem ofFile_ok_iff {index : Index} : ofFile file = .ok index ↔
    (∀ s ∈ file.statements, s.form ≠ .anonymousDefaultClass) ∧ index = ofStatements file := by
  rw [← find?_isAnonymous_none]
  unfold ofFile
  cases file.statements.find? isAnonymous with
  | none => simp [eq_comm]
  | some s => simp

theorem ofFile_append (path : Path) (first second : List Statement) :
    ofFile ⟨path, first ++ second⟩ = do
      let index ← ofFile ⟨path, first⟩
      let index' ← ofFile ⟨path, second⟩
      return index.merge index' := by
  unfold ofFile
  rw [List.find?_append]
  cases first.find? isAnonymous with
  | some s => rfl
  | none =>
    cases second.find? isAnonymous with
    | some s => rfl
    | none => exact congrArg Except.ok (ofStatements_append path first second)

-- The index of a file has exactly what its statements bind, or it is refused for the first class without a name.
theorem ofFile_faithful (path : Path) (statements : List Statement) :
    (∀ e, ofFile ⟨path, statements⟩ = .error e ↔
      ∃ before s after, statements = before ++ s :: after ∧ s.form = .anonymousDefaultClass ∧
        (∀ t ∈ before, t.form ≠ .anonymousDefaultClass) ∧
        e = .malformedExport path s.range.line s.range.column "exported class has no name") ∧
    (∀ index, ofFile ⟨path, statements⟩ = .ok index ↔
      (∀ s ∈ statements, s.form ≠ .anonymousDefaultClass) ∧ index.Lists ⟨path, statements⟩) ∧
    (∀ before s after, statements = before ++ s :: after →
      (∀ table, tableOf s = some table ∨
        (ofStatements ⟨path, statements⟩).view table = (ofStatements ⟨path, before ++ after⟩).view table) ∧
      ((wildcardOf path s).isSome ∨
        (ofStatements ⟨path, statements⟩).wildcards = (ofStatements ⟨path, before ++ after⟩).wildcards)) ∧
    ∀ first second, statements = first ++ second →
      ofFile ⟨path, statements⟩ = do
        let index ← ofFile ⟨path, first⟩
        let index' ← ofFile ⟨path, second⟩
        return index.merge index' := by
  refine ⟨fun e => ofFile_error_iff, fun index => ?_, ?_, ?_⟩
  · rw [ofFile_ok_iff, lists_iff]
  · rintro before s after rfl
    constructor
    · intro table
      by_cases own : tableOf s = some table
      · exact .inl own
      · exact .inr (view_elsewhere path before after own)
    · cases own : wildcardOf path s with
      | some target => exact .inl rfl
      | none => exact .inr (wildcards_elsewhere path before after own)
  · rintro first second rfl
    exact ofFile_append path first second

-- Names on both sides of `as`: an import goes by the second, and an export is given out under it.
example : (ofFile (.ofForms "a.ts"
      [ .importFrom { (default : Import) with source := "./x", specifiers := [{ name := "A", otherName := some "B" }] },
        .exportNamed [{ name := "B", otherName := some "C", range := default }] none,
        .exportNamed [{ name := "D", otherName := some "E", range := default }] (some "./y") ])).toOption.map
      (fun index => (index.imports.entries, index.localExports.entries, index.reexports.entries)) =
    some ([("B", { name := "A", target := .file ⟨"x"⟩ })], [("C", "B")],
      [("E", { name := "D", target := .file ⟨"y"⟩ })]) := by
  decide +kernel

end Index
end ComponentAtlas
