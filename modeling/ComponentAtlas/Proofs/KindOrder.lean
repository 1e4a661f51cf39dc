import ComponentAtlas.Proofs.FirstMatch

namespace ComponentAtlas
open Outline

namespace KindFilter

variable {narrow wide : KindFilter}

structure Within (narrow wide : KindFilter) : Prop where
  interfaces : narrow.interfaces = true → wide.interfaces = true
  types : narrow.types = true → wide.types = true

theorem Within.classes : classes.Within classesAndInterfaces := ⟨nofun, nofun⟩

theorem Within.classesAndInterfaces : classesAndInterfaces.Within any := ⟨fun _ => rfl, nofun⟩

def admits (kinds : KindFilter) : Declaration → Bool
  | .classDecl _ => true
  | .interfaceDecl _ => kinds.interfaces
  | .aliasDecl _ | .enumDecl _ => kinds.types

theorem Within.admits (narrower : narrow.Within wide) {declaration : Declaration}
    (admitted : narrow.admits declaration = true) : wide.admits declaration = true := by
  cases declaration with
  | classDecl => rfl
  | interfaceDecl => exact narrower.interfaces admitted
  | aliasDecl | enumDecl => exact narrower.types admitted

end KindFilter

namespace Index

variable {index : Index} {narrow wide : KindFilter}

-- The declarations of a name in a file, whatever their kind, the one that comes first in front.
def candidates (index : Index) (name : String) : List Declaration :=
  ((index.exportedClasses.get? name).or (index.declaredClasses.get? name)).toList.map .classDecl ++
    ((index.exportedInterfaces.get? name).or (index.declaredInterfaces.get? name)).toList.map .interfaceDecl ++
    ((index.exportedAliases.get? name).or (index.declaredAliases.get? name)).toList.map .aliasDecl ++
    ((index.exportedEnums.get? name).or (index.declaredEnums.get? name)).toList.map .enumDecl

theorem local?_eq_find? (index : Index) (kinds : KindFilter) (name : String) :
    index.local? kinds name = (index.candidates name).find? kinds.admits := by
  obtain ⟨interfaces, types⟩ := kinds
  unfold local? candidates
  dsimp only
  cases (index.exportedClasses.get? name).or (index.declaredClasses.get? name) with
  | some d => rfl
  | none =>
    cases (index.exportedInterfaces.get? name).or (index.declaredInterfaces.get? name) <;>
    cases (index.exportedAliases.get? name).or (index.declaredAliases.get? name) <;>
    cases (index.exportedEnums.get? name).or (index.declaredEnums.get? name) <;>
    cases interfaces <;> cases types <;> rfl

theorem local?_absent (narrower : narrow.Within wide) (absent : index.local? wide name = none) :
    index.local? narrow name = none := by
  rw [local?_eq_find?, List.find?_eq_none] at absent ⊢
  exact fun declaration member admitted => absent declaration member (narrower.admits admitted)

-- A declaration found among more kinds is also the one found among fewer, if these admit it.
theorem local?_admitted (narrower : narrow.Within wide) (here : index.local? wide name = some declaration)
    (admitted : narrow.admits declaration = true) : index.local? narrow name = some declaration := by
  rw [local?_eq_find?, List.find?_eq_some_iff_append] at here ⊢
  obtain ⟨-, before, after, split, passed⟩ := here
  refine ⟨admitted, before, after, split, fun other member => ?_⟩
  have refused := passed other member
  rw [Bool.not_eq_true'] at refused ⊢
  exact Bool.eq_false_iff.mpr fun taken => Bool.eq_false_iff.mp refused (narrower.admits taken)

end Index

namespace Search

variable {v : View} {origin : Reference} {narrow wide : KindFilter}

-- Every place that the wider search leaves behind has nothing for it, hence nothing for the narrower one,
-- so the two take the same steps up to the declaration that the wider one ends in.
theorem Searched.restrict (narrower : narrow.Within wide)
    (searched : Searched v { kinds := wide, origin } task before result after notes)
    (admitted : ∀ symbol, result = .ok symbol → narrow.admits symbol.declaration = true) :
    Searched v { kinds := narrow, origin } task before result after notes := by
  generalize request : ({ kinds := wide, origin } : Request) = wider at searched
  induction searched with
  | unreadable shown => exact .unreadable shown
  | repeated shown seen => exact .repeated shown seen
  | entered shown fresh _ ih => exact .entered shown fresh (ih admitted)
  | @declared x declaration before here =>
    subst request
    have here' : x.declaration? narrow = some declaration := Index.local?_admitted narrower here (admitted _ rfl)
    exact .declared here'
  | bound absent binds _ ih =>
    subst request
    exact .bound (Index.local?_absent narrower absent) binds (ih admitted)
  | unbound absent free _ ih =>
    subst request
    exact .unbound (Index.local?_absent narrower absent) free (ih admitted)
  | file _ ih => exact .file (ih admitted)
  | package => exact .package
  | exhausted => exact .exhausted
  | hit _ ih => exact .hit (ih admitted)
  | miss _ _ ihFailed ihLater => exact .miss (ihFailed fun _ equal => by cases equal) (ihLater admitted)

end Search

namespace View

variable {v : View} {narrow wide : KindFilter}

theorem Reaches.widen (narrower : narrow.Within wide) (reached : v.Reaches narrow start x)
    (declared : (x.declaration? narrow).isSome) : ∃ y, v.Reaches wide start y ∧ (y.declaration? wide).isSome := by
  induction reached using Relation.ReflTransGen.head_induction_on with
  | refl =>
    refine ⟨x, .refl, Option.isSome_iff_ne_none.mpr fun absent => ?_⟩
    rw [Place.declaration?, Index.local?_absent narrower absent] at declared
    cases declared
  | @head start next step _ ih =>
    cases here : start.declaration? wide with
    | some declaration => exact ⟨start, .refl, by rw [here]; rfl⟩
    | none =>
      obtain ⟨y, rest, found⟩ := ih
      have absent : start.declaration? narrow = none := Index.local?_absent narrower here
      rw [next_onward absent, ← next_onward here] at step
      exact ⟨y, .head step rest, found⟩

theorem Resolves.reaches (coherent : v.Coherent) (resolves : v.Resolves kinds reference (.ok symbol)) :
    ∃ start ∈ v.starts reference, ∃ x, v.Reaches kinds start x ∧ (x.declaration? kinds).isSome := by
  obtain ⟨x, declaration, first, -⟩ := resolves.first coherent
  obtain ⟨⟨start, member, reached⟩, declared⟩ := first.sound
  exact ⟨start, member, x, reached, declared⟩

theorem Resolves.unreachable (coherent : v.Coherent) (resolves : v.Resolves kinds reference (.error e))
    (member : start ∈ v.starts reference) (reached : v.Reaches kinds start x) : x.declaration? kinds = none := by
  obtain ⟨after, notes, searched⟩ := resolves
  obtain ⟨-, settled, all⟩ := Search.keeps_of_searched coherent searched [] .start
  exact settled.unreachable (starts_holds member) (all start member) reached

theorem Resolves.widen (coherent : v.Coherent) (finite : v.places.Finite) (narrower : narrow.Within wide)
    (resolves : v.Resolves narrow reference (.ok symbol)) : ∃ symbol, v.Resolves wide reference (.ok symbol) := by
  obtain ⟨start, member, x, reached, declared⟩ := resolves.reaches coherent
  obtain ⟨y, reached', declared'⟩ := reached.widen narrower declared
  obtain ⟨result, resolves'⟩ := resolves_total coherent finite wide reference
  cases result with
  | ok symbol => exact ⟨symbol, resolves'⟩
  | error e =>
    rw [resolves'.unreachable coherent member reached'] at declared'
    cases declared'

end View

section

variable {σ : Type} {p : Provider σ} {w w' later : Work σ} {narrow wide : KindFilter}

theorem resolve_widen (consistent : p.Consistent w.state) (finite : p.FiniteFiles w.state)
    (reached : p.Reaches w.state later.state) (narrower : narrow.Within wide)
    (resolved : resolve p narrow reference w = some (.ok symbol, w')) :
    ∃ symbol w'', resolve p wide reference later = some (.ok symbol, w'') := by
  obtain ⟨-, resolves⟩ := resolve_sound consistent.shows .refl resolved
  obtain ⟨symbol, wider⟩ := resolves.widen consistent.coherent finite.places_finite narrower
  exact ⟨symbol, resolve_complete consistent.shows reached wider⟩

theorem resolve_narrow (consistent : p.Consistent w.state) (reached : p.Reaches w.state later.state)
    (narrower : narrow.Within wide) (resolved : resolve p wide reference w = some (.ok symbol, w'))
    (admitted : narrow.admits symbol.declaration = true) :
    ∃ w'' notes, resolve p narrow reference later = some (.ok symbol, w'') ∧
      w'.diagnostics = w.diagnostics ++ notes ∧ w''.diagnostics = later.diagnostics ++ notes := by
  obtain ⟨-, after, notes, reported, searched⟩ := resolve_searched consistent.shows .refl resolved
  have narrowed := searched.restrict narrower fun other equal => by
    cases equal
    exact admitted
  obtain ⟨w'', resolved', reported', -⟩ := searched_resolve consistent.shows reached narrowed
  exact ⟨w'', notes, resolved', reported, reported'⟩

end

-- Asking for more kinds never turns a find into a failure, and a find that fewer kinds would do for is
-- the find of the search for these, with the same diagnostics.
theorem resolve_conservative {σ : Type} {p : Provider σ} {w later : Work σ} (consistent : p.Consistent w.state)
    (finite : p.FiniteFiles w.state) (reached : p.Reaches w.state later.state) (reference : Reference) :
    ((∃ symbol w', resolve p .classes reference w = some (.ok symbol, w')) →
      ∃ symbol w', resolve p .classesAndInterfaces reference later = some (.ok symbol, w')) ∧
    ((∃ symbol w', resolve p .classesAndInterfaces reference w = some (.ok symbol, w')) →
      ∃ symbol w', resolve p .any reference later = some (.ok symbol, w')) ∧
    (∀ symbol w', resolve p .classesAndInterfaces reference w = some (.ok symbol, w') →
      symbol.kind = .classSymbol →
      ∃ w'' notes, resolve p .classes reference later = some (.ok symbol, w'') ∧
        w'.diagnostics = w.diagnostics ++ notes ∧ w''.diagnostics = later.diagnostics ++ notes) ∧
    (∀ symbol w', resolve p .any reference w = some (.ok symbol, w') →
      symbol.kind = .classSymbol ∨ symbol.kind = .interfaceSymbol →
      ∃ w'' notes, resolve p .classesAndInterfaces reference later = some (.ok symbol, w'') ∧
        w'.diagnostics = w.diagnostics ++ notes ∧ w''.diagnostics = later.diagnostics ++ notes) := by
  refine ⟨?_, ?_, ?_, ?_⟩
  · rintro ⟨symbol, w', resolved⟩
    exact resolve_widen consistent finite reached .classes resolved
  · rintro ⟨symbol, w', resolved⟩
    exact resolve_widen consistent finite reached .classesAndInterfaces resolved
  · intro symbol w' resolved kind
    refine resolve_narrow consistent reached .classes resolved ?_
    unfold Symbol.kind at kind
    split at kind <;> simp_all [KindFilter.admits]
  · intro symbol w' resolved kind
    refine resolve_narrow consistent reached .classesAndInterfaces resolved ?_
    unfold Symbol.kind at kind
    split at kind <;> simp_all [KindFilter.admits, KindFilter.classesAndInterfaces]

def patchy : SourceFile := .ofForms "patchy.ts" [.exportAll "./gone.ts", .exportAll "./b.ts"]

theorem resolve_conservative_patchy : ∃ symbol w' w'' note,
    resolve (.ofFiles [patchy, stocked]) .any (.of "Widget" ⟨"patchy.ts"⟩) (.start ()) = some (.ok symbol, w') ∧
      resolve (.ofFiles [patchy, stocked]) .classesAndInterfaces (.of "Widget" ⟨"patchy.ts"⟩) w' =
        some (.ok symbol, w'') ∧
      w'.diagnostics = [note] ∧ w''.diagnostics = [note, note] := by
  let p := Provider.ofFiles [patchy, stocked]
  have consistent : p.Consistent () := Provider.ofFiles_consistent _
  have start : (p.view ()).enter "Widget" (.file ⟨"patchy.ts"⟩) = some (.of patchy "Widget") :=
    View.enter_ofFiles _ (by decide +kernel) (by decide +kernel)
  have next : (p.view ()).enter "Widget" (.file ⟨"b.ts"⟩) = some (.of stocked "Widget") :=
    View.enter_ofFiles _ (by decide +kernel) (by decide +kernel)
  have gone : p.view () ⟨"gone.ts"⟩ = .error (.parse (.noSource ⟨"gone.ts"⟩ 1)) :=
    Provider.ofFiles_missing (by decide +kernel)
  have here : (Place.of stocked "Widget").declaration? .any = some widget := by decide +kernel
  have onward : (Place.of patchy "Widget").index.wildcards = [.file ⟨"gone.ts"⟩, .file ⟨"b.ts"⟩] := by decide +kernel
  have scanned : Search.Searched (p.view ()) { kinds := .any, origin := .of "Widget" ⟨"patchy.ts"⟩ }
      (.scan (.of patchy "Widget") [.file ⟨"gone.ts"⟩, .file ⟨"b.ts"⟩]) [(Place.of patchy "Widget").hop] _ _ _ :=
    .miss (.file (.unreadable gone)) (.hit (.file (.entered next (by decide +kernel) (.declared here))))
  rw [← onward] at scanned
  obtain ⟨w', resolved, reported, -⟩ := searched_resolve (w := .start ()) consistent.shows .refl
    (.entered start List.not_mem_nil (.unbound (by decide +kernel) (by decide +kernel) scanned))
  have reached : p.Reaches (Work.start ()).state w'.state := .refl
  obtain ⟨-, -, -, narrowed⟩ := resolve_conservative consistent (Provider.ofFiles_finite _) reached
    (.of "Widget" ⟨"patchy.ts"⟩)
  obtain ⟨w'', notes, resolved', reported', reported''⟩ := narrowed _ _ resolved (.inl rfl)
  have same : notes = w'.diagnostics := reported'.symm
  refine ⟨_, w', w'', _, resolved, resolved', reported, ?_⟩
  rw [reported'', same, reported]
  rfl

end ComponentAtlas
