import ComponentAtlas.Proofs.ExportList

namespace ComponentAtlas
open Outline

-- In its file the name is nothing but, perhaps, a class that the file exports.
def Place.Plain (x : Place) : Prop :=
  x.name ∈ x.index.exportedClasses.keys ∨ (x.declaration? .classes = none ∧ x.binding? = none)

def View.Clear (v : View) (x : Place) : Prop := ∀ y, v.Reaches .classes x y → y.Plain

namespace Enumeration

variable {v : View}

def hops (name : String) (files : List (List Path.Component)) : List Hop := files.map (Hop.mk · name)

theorem mem_hops {x : Place} : x.hop ∈ hops x.name files ↔ x.file.path.components ∈ files := by
  rw [hops, List.mem_map]
  constructor
  · rintro ⟨place, member, equal⟩
    obtain ⟨rfl, -⟩ := (Hop.mk.injEq ..).mp equal
    exact member
  · exact fun member => ⟨_, member, rfl⟩

-- What an enumeration that has some nodes still to go through has to come to, for a name that was free:
-- it lists the class that the walk meets first, or the walk meets none.
def Meets (v : View) (name : String) (trail : List Hop) (xs : List Place) (after : List (List Path.Component))
    (l : ExportList) : Prop :=
  (∃ x c, FirstMatch v .classes trail xs (some x) ∧ l.classes.get? name = some c ∧
    x.file.path = c.declaredIn ∧ x.name = c.declaredName) ∨
  (l.isTaken name = false ∧ FirstMatch v .classes trail xs none ∧
    Search.Settled v .classes trail (hops name after) ∧ ∀ x ∈ xs, x.hop ∈ hops name after)

def Follows (v : View) (name : String) (before after : List (List Path.Component)) (l : ExportList) : Task → Prop
  | .file path index => ∀ x : Place, v.Holds x → x.file.path = path → x.index = index → x.name = name → v.Clear x →
      ∀ trail, Search.Settled v .classes trail (hops name before) → Meets v name trail [x] after l
  | .targets _ targets => (∀ x ∈ v.live (targets.map (name, ·)), v.Clear x) →
      ∀ trail, Search.Settled v .classes trail (hops name before) →
        Meets v name trail (v.live (targets.map (name, ·))) after l
  | .visit path => (∀ x ∈ (v.enter name (.file path)).toList, v.Clear x) →
      ∀ trail, Search.Settled v .classes trail (hops name before) →
        Meets v name trail (v.enter name (.file path)).toList after l

theorem plain_free {x : Place} (plain : x.declaration? .classes = none ∧ x.binding? = none) :
    x.name ∉ x.index.exportedClasses.keys ∧ x.name ∉ x.index.reexports.keys := by
  obtain ⟨absent, free⟩ := plain
  constructor
  · intro member
    obtain ⟨d, here⟩ := exported_declaration? member
    rw [here] at absent
    cases absent
  · exact Ordered.get?_eq_none_iff.mp (Option.or_eq_none_iff.mp free).2

theorem Meets.append (coherent : v.Coherent) (later : Collected v (.targets path rest) between middle notes after l)
    (first : Meets v name trail xs between middle)
    (second : middle.isTaken name = false → Search.Settled v .classes trail (hops name between) →
      Meets v name trail ys after l) :
    Meets v name trail (xs ++ ys) after l := by
  rcases first with ⟨x, c, found, listed, place⟩ | ⟨free, nothing, settled, all⟩
  · exact .inl ⟨x, c, found.append_some, (later.grows coherent trivial).keeps listed, place⟩
  · rcases second free settled with ⟨x, c, found, listed, place⟩ | ⟨free', nothing', settled', all'⟩
    · exact .inl ⟨x, c, nothing.append_none found, listed, place⟩
    · refine .inr ⟨free', nothing.append_none nothing', settled', fun x member => ?_⟩
      rcases List.mem_append.mp member with one | two
      · exact List.map_subset _ later.subset (all x one)
      · exact all' x two

theorem follows_of_collected (coherent : v.Coherent) (collected : Collected v task before l notes after l')
    (free : l.isTaken name = false) : Follows v name before after l' task := by
  induction collected with
  | @again _ _ before _ seen =>
    rintro x holds rfl rfl rfl clear trail settled
    have present : x.hop ∈ hops x.name before := mem_hops.mpr seen
    exact .inr ⟨free, settled.skipped holds present, settled, List.forall_mem_singleton.mpr present⟩
  | entered fresh own rest ih =>
    rintro x holds rfl rfl rfl clear trail settled
    have off : x.hop ∉ trail := fun on => fresh (mem_hops.mp (settled.entered on))
    rcases clear x .refl with exported | plain
    · -- The file exports the class: it is listed at once, and stays.
      obtain ⟨d, here⟩ := exported_declaration? exported
      have listed := (rest.grows coherent trivial).keeps
        ((own.grows coherent).keeps (addClasses_get? x.file.path free exported))
      exact .inl ⟨x, _, .here off here, listed, rfl, rfl⟩
    · -- The file says nothing of the name, so both go on to its wildcard targets.
      obtain ⟨notClass, notReexport⟩ := plain_free plain
      obtain ⟨absent, unbound⟩ := plain
      have next : v.next .classes x = v.live (x.index.wildcards.map (x.name, ·)) := View.next_unbound absent unbound
      have free' := (own.untouched notReexport).trans ((addClasses_untouched x.file.path _ notClass).trans free)
      have below := ih free' (fun y member z reached => clear z (.head (next ▸ member) reached)) _ (settled.push x.hop)
      rw [← next] at below
      rcases below with ⟨y, c, found, listed, place⟩ | ⟨free'', nothing, settled', all⟩
      · exact .inl ⟨y, c, .deeper off absent found, listed, place⟩
      · refine .inr ⟨free'', .barren off absent nothing .empty, settled'.pop coherent holds absent all, ?_⟩
        exact List.forall_mem_singleton.mpr (settled'.entered List.mem_cons_self)
  | done => exact fun clear trail settled => .inr ⟨free, .empty, settled, by simp [View.live]⟩
  | @file path target rest before l notes between middle notes' after l' first later ihFirst ihLater =>
    intro clear trail settled
    rw [List.map_cons, View.live_cons] at clear ⊢
    have clearFirst := fun x member => clear x (List.mem_append_left _ member)
    have clearLater := fun x member => clear x (List.mem_append_right _ member)
    refine Meets.append coherent later (ihFirst free clearFirst trail settled) ?_
    exact fun free' settled' => ihLater free' clearLater trail settled'
  | package _ ih =>
    intro clear trail settled
    rw [List.map_cons, View.live_cons] at clear ⊢
    exact ih free clear trail settled
  | unreadable shown =>
    intro clear trail settled
    rw [View.enter_unreadable shown]
    exact .inr ⟨free, .empty, settled, by simp⟩
  | opened shown _ ih =>
    intro clear trail settled
    rw [View.enter_file name shown] at clear ⊢
    exact ih free _ ⟨_, shown⟩ rfl rfl rfl (clear _ List.mem_cons_self) trail settled

end Enumeration

def ExportedClass.Describes (c : ExportedClass) (symbol : Symbol) : Prop :=
  symbol.kind = .classSymbol ∧ symbol.file = c.declaredIn ∧ symbol.name = c.declaredName

namespace View

variable {v : View}

theorem Offers.same (coherent : v.Coherent) (offers : v.Offers name c x) (holds : v.Holds y)
    (file : y.file.path = c.declaredIn) (local' : y.name = c.declaredName) : y = x := by
  refine coherent.place_eq holds offers.holds ?_
  rw [Place.hop, Place.hop, file, local', offers.declaredIn, offers.declaredName]

theorem Offers.symbol (offers : v.Offers name c x) (request : Request) (classes : request.kinds = .classes) :
    ∃ symbol, x.symbol? request = some symbol ∧ c.Describes symbol := by
  obtain ⟨declaration, here⟩ := Option.isSome_iff_exists.mp offers.declared
  obtain ⟨d, rfl⟩ := Index.class_of_local? here
  exact ⟨request.symbol x.name x.file.path (.classDecl d), by rw [Place.symbol?, classes, here]; rfl,
    rfl, offers.declaredIn, offers.declaredName⟩

-- Where nothing shadows the name, the walk from the entry meets the listed class first.
theorem Offers.first {reference : Reference} {l : ExportList} (coherent : v.Coherent)
    (offers : v.Offers reference.name c x) (shown : v reference.file = .ok (file, index))
    (collected : Enumeration.Collected v (.file file.path index) [] .empty notes after l)
    (listed : l.classes.get? reference.name = some c) (clear : ∀ start ∈ v.starts reference, v.Clear start) :
    FirstMatch v .classes [] (v.starts reference) (some x) := by
  have starts : v.starts reference = [{ file, index, name := reference.name }] := by
    rw [View.starts, enter_file _ shown]
    rfl
  rw [starts] at clear ⊢
  have follows : Enumeration.Follows v reference.name [] after l (.file file.path index) :=
    Enumeration.follows_of_collected coherent collected rfl
  rcases follows _ ⟨_, shown⟩ rfl rfl rfl (clear _ List.mem_cons_self) [] .start with
    ⟨y, c', found, listed', declaredIn, declaredName⟩ | ⟨free, -⟩
  · rw [listed] at listed'
    cases listed'
    have holds : v.Holds y := found.holds fun start member => starts_holds (starts ▸ member)
    rwa [offers.same coherent holds declaredIn declaredName] at found
  · rw [ExportList.isTaken_of_get? listed] at free
    cases free

end View

-- A name in the list of an entry, looked up from that entry: the search returns the listed class exactly when
-- that is what the walk meets first, and this is so unless a file on the walk has the name as an
-- import, a re-export or a class that it does not export.
theorem exportedClasses_agree_iff {σ : Type} {p : Provider σ} {w w' later : Work σ} {l : ExportList}
    {c : ExportedClass} (consistent : p.Consistent w.state) (reference : Reference)
    (enumerated : exportedClasses p reference.file w = some (.ok l, w'))
    (listed : l.classes.get? reference.name = some c) (reached : p.Reaches w.state later.state) :
    ∃ x, (p.view w.state).Offers reference.name c x ∧
      ((∃ symbol w'', resolve p .classes reference later = some (.ok symbol, w'') ∧ c.Describes symbol) ↔
        FirstMatch (p.view w.state) .classes [] ((p.view w.state).starts reference) (some x)) ∧
      ((∀ start ∈ (p.view w.state).starts reference, (p.view w.state).Clear start) →
        ∃ symbol w'', resolve p .classes reference later = some (.ok symbol, w'') ∧ c.Describes symbol) := by
  have shows := consistent.shows
  have coherent := consistent.coherent
  obtain ⟨file, index, notes, after, shown, collected⟩ := (exportedClasses_iff shows .refl).mp ⟨w', enumerated⟩
  obtain ⟨x, offers⟩ := (collected.grows coherent ⟨_, _, shown, rfl⟩).offered listed
  have agree : (∃ symbol w'', resolve p .classes reference later = some (.ok symbol, w'') ∧ c.Describes symbol) ↔
      FirstMatch (p.view w.state) .classes [] ((p.view w.state).starts reference) (some x) := by
    constructor
    · rintro ⟨symbol, w'', resolved, -, declaredIn, declaredName⟩
      obtain ⟨-, resolves⟩ := resolve_sound shows reached resolved
      obtain ⟨y, declaration, first, holds, -, rfl⟩ := resolves.first coherent
      rwa [offers.same coherent holds declaredIn declaredName] at first
    · intro first
      obtain ⟨symbol, loaded, describes⟩ := offers.symbol { kinds := .classes, origin := reference } rfl
      obtain ⟨w'', resolved⟩ := resolve_complete shows reached ((View.resolves_ok_iff coherent).mpr ⟨x, first, loaded⟩)
      exact ⟨symbol, w'', resolved, describes⟩
  exact ⟨x, offers, agree, fun clear => agree.mpr (offers.first coherent shown collected listed clear)⟩

theorem exportedClasses_agree_iff_barrels : ∃ symbol w', resolve (.ofFiles [barrel, stocked]) .classes
    (.of "Widget" ⟨"a.ts"⟩) (.start ()) = some (.ok symbol, w') ∧ symbol.file = ⟨"b.ts"⟩ := by
  let p := Provider.ofFiles [barrel, stocked]
  let v := p.view ()
  have consistent : p.Consistent () := Provider.ofFiles_consistent _
  have first : v ⟨"a.ts"⟩ = .ok (barrel, .ofStatements barrel) :=
    Provider.ofFiles_view (by decide +kernel) (by decide +kernel)
  have second : v ⟨"b.ts"⟩ = .ok (stocked, .ofStatements stocked) :=
    Provider.ofFiles_view (by decide +kernel) (by decide +kernel)
  have onward : (Index.ofStatements barrel).wildcards = [.file ⟨"b.ts"⟩] := by decide +kernel
  have back : (Index.ofStatements stocked).wildcards = [.file ⟨"a.ts"⟩] := by decide +kernel
  have collected : Enumeration.Collected v (.file ⟨"a.ts"⟩ (.ofStatements barrel)) [] .empty _ _ _ :=
    .of_bare (by decide +kernel) (by decide +kernel) onward (.file (.opened second
      (.of_bare (by decide +kernel) (by decide +kernel) back (.file (.opened first
        (.again (by decide +kernel))) .done))) .done)
  obtain ⟨w', enumerated⟩ := (exportedClasses_iff (w := .start ()) consistent.shows .refl).mpr
    ⟨barrel, _, _, _, first, collected⟩
  obtain ⟨x, -, -, agree⟩ := exportedClasses_agree_iff consistent (.of "Widget" ⟨"a.ts"⟩) enumerated
    (c := { via := ⟨"b.ts"⟩, declaredName := "Widget", declaredIn := ⟨"b.ts"⟩ }) (by decide +kernel) .refl
  -- The walk goes through the two files, and neither has the name but as an exported class.
  have clear : ∀ start ∈ v.starts (.of "Widget" ⟨"a.ts"⟩), v.Clear start := by
    intro start member y reached
    have only : v.starts (.of "Widget" ⟨"a.ts"⟩) = [.of barrel "Widget"] :=
      congrArg Option.toList (View.enter_file "Widget" first)
    rw [only] at member
    obtain rfl := List.mem_singleton.mp member
    have inside : y = .of barrel "Widget" ∨ y = .of stocked "Widget" := by
      induction reached with
      | refl => exact .inl rfl
      | tail _ step ih =>
        rcases ih with rfl | rfl
        · rw [View.next_unbound (by decide +kernel) (by decide +kernel)] at step
          have next : v.live ((Index.ofStatements barrel).wildcards.map ("Widget", ·)) = [.of stocked "Widget"] := by
            rw [onward, List.map_cons, List.map_nil, View.live_singleton, View.enter_file _ second]
            rfl
          exact .inr (List.mem_singleton.mp (next ▸ step))
        · obtain ⟨d, here⟩ := Enumeration.exported_declaration? (x := .of stocked "Widget") (by decide +kernel)
          rw [View.next_declared here] at step
          cases step
    rcases inside with rfl | rfl
    · exact .inr ⟨by decide +kernel, by decide +kernel⟩
    · exact .inl (by decide +kernel)
  obtain ⟨symbol, w'', resolved, -, declaredIn, -⟩ := agree clear
  exact ⟨symbol, w'', resolved, declaredIn⟩

-- An entry that forwards a class of the same name as one that it keeps to itself.
def keeper : SourceFile := .ofForms "index.ts" [.declaration .none widget, .exportAll "./lib.ts"]

def lender : SourceFile := .ofForms "lib.ts" [.declaration .named widget]

theorem exportedClasses_disagree : ∃ l w' c,
    exportedClasses (.ofFiles [keeper, lender]) ⟨"index.ts"⟩ (.start ()) = some (.ok l, w') ∧
      l.classes.get? "Widget" = some c ∧
      ¬ ∃ symbol w'', resolve (.ofFiles [keeper, lender]) .classes (.of "Widget" ⟨"index.ts"⟩) w' =
        some (.ok symbol, w'') ∧ c.Describes symbol := by
  let p := Provider.ofFiles [keeper, lender]
  have consistent : p.Consistent () := Provider.ofFiles_consistent _
  have first : p.view () ⟨"index.ts"⟩ = .ok (keeper, .ofStatements keeper) :=
    Provider.ofFiles_view (by decide +kernel) (by decide +kernel)
  have second : p.view () ⟨"lib.ts"⟩ = .ok (lender, .ofStatements lender) :=
    Provider.ofFiles_view (by decide +kernel) (by decide +kernel)
  have onward : (Index.ofStatements keeper).wildcards = [.file ⟨"lib.ts"⟩] := by decide +kernel
  have last : (Index.ofStatements lender).wildcards = [] := by decide +kernel
  have collected : Enumeration.Collected (p.view ()) (.file ⟨"index.ts"⟩ (.ofStatements keeper)) [] .empty _ _ _ :=
    .of_bare (by decide +kernel) (by decide +kernel) onward (.file (.opened second
      (.of_bare (by decide +kernel) (by decide +kernel) last .done)) .done)
  obtain ⟨w', enumerated⟩ := (exportedClasses_iff (w := .start ()) consistent.shows .refl).mpr
    ⟨keeper, _, _, _, first, collected⟩
  refine ⟨_, w', { via := ⟨"lib.ts"⟩, declaredName := "Widget", declaredIn := ⟨"lib.ts"⟩ }, enumerated,
    by decide +kernel, ?_⟩
  rintro ⟨symbol, w'', resolved, -, declaredIn, -⟩
  -- The search ends in the class that the entry does not export.
  have here : (Place.of keeper "Widget").declaration? .classes = some widget := by decide +kernel
  have resolves : (p.view ()).Resolves .classes (.of "Widget" ⟨"index.ts"⟩) (.ok _) :=
    ⟨_, _, .entered (View.enter_file "Widget" first) List.not_mem_nil (.declared here)⟩
  obtain ⟨-, resolves'⟩ := resolve_sound (w := w') consistent.shows .refl resolved
  cases resolves.unique consistent.shows .refl resolves'
  exact absurd declaredIn (by decide +kernel)

end ComponentAtlas
