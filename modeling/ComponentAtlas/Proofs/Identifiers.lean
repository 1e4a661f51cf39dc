import ComponentAtlas.Proofs.LineageShape
import ComponentAtlas.Proofs.OutputFiles
import Mathlib.Data.List.Infix

namespace ComponentAtlas
open Outline

-- No end of the mark, but none and all of it, is a beginning of it.
def Unbordered {α : Type} (mark : List α) : Prop := ∀ rest, rest <:+ mark → rest <+: mark → rest = [] ∨ rest = mark

-- A text that holds an unbordered mark has one part in front of it that does not.
theorem Unbordered.split_unique {mark : List α} (unbordered : Unbordered mark) (one : ¬ mark <:+: a) (two : ¬ mark <:+: b)
    (equal : a ++ (mark ++ x) = b ++ (mark ++ y)) : a = b ∧ x = y := by
  -- The longer front goes past the shorter one by nothing, or holds the mark or an end of it that opens another mark.
  have longer : ∀ {a b x y : List α}, ¬ mark <:+: b → a ++ (mark ++ x) = b ++ (mark ++ y) →
      ∀ more, b = a ++ more → more = [] := by
    rintro a b x y free equal more rfl
    rw [List.append_assoc, List.append_cancel_left_eq] at equal
    have holds : mark <+: more → mark <:+: a ++ more := fun opens => opens.isInfix.trans (List.suffix_append a more).isInfix
    rcases List.append_eq_append_iff.mp equal with ⟨rest, rfl, -⟩ | ⟨rest, pieces, later⟩
    · exact absurd (holds (List.prefix_append _ _)) free
    · have shorter : rest.length ≤ mark.length := by
        rw [pieces, List.length_append]
        exact Nat.le_add_left _ _
      have opens : rest <+: mark :=
        List.prefix_of_prefix_length_le (List.prefix_append rest x) (later ▸ List.prefix_append mark y) shorter
      rcases unbordered rest ⟨more, pieces.symm⟩ opens with rfl | rfl
      · rw [List.append_nil] at pieces
        exact absurd (holds (pieces ▸ List.prefix_refl _)) free
      · exact List.self_eq_append_left.mp pieces
  have same : a = b := by
    rcases List.append_eq_append_iff.mp equal with ⟨more, front, -⟩ | ⟨more, front, -⟩
    · rw [longer two equal more front, List.append_nil] at front
      exact front.symm
    · rw [longer one equal.symm more front, List.append_nil] at front
      exact front
  rw [same, List.append_cancel_left_eq, List.append_cancel_left_eq] at equal
  exact ⟨same, equal⟩

def ExportedClass.hop (c : ExportedClass) : Hop := Hop.of c.declaredIn c.declaredName

namespace ExportList

variable {l : ExportList}

-- A declaration keeps the name it has; one that is new in the list gets the name that it is listed under.
theorem lookup_insert (free : l.isTaken name = false) (c : ExportedClass) (hop : Hop) :
    (l.insert name c).names.lookup hop = (l.names.lookup hop).or (if hop = c.hop then some name else none) := by
  have names : (l.insert name c).names =
      if (l.names.lookup c.hop).isSome then l.names else l.names ++ [(c.hop, name)] := by
    rw [ExportList.insert, if_neg (ne_true_of_eq_false free)]
    rfl
  rw [names]
  split
  · rename_i known
    split
    · rename_i same
      obtain ⟨other, found⟩ := Option.isSome_iff_exists.mp known
      rw [same, found]
      rfl
    · rw [Option.or_none]
  · rw [List.lookup_append, List.lookup_cons, List.lookup_nil]
    by_cases same : hop = c.hop
    · simp [same]
    · simp [same, beq_eq_false_iff_ne.mpr same]

-- The name that a declaration gets is a name it is listed under, and every declaration that is listed gets one.
structure NamesListed (l : ExportList) : Prop where
  listed : l.names.lookup hop = some name → ∃ c, l.classes.get? name = some c ∧ c.hop = hop
  named : l.classes.get? name = some c → (l.names.lookup c.hop).isSome

theorem namesListed_kept : Kept NamesListed where
  insert {l} holds name c := by
    cases free : l.isTaken name with
    | true =>
      rw [insert_taken free]
      exact holds
    | false =>
      have lookup := lookup_insert free c
      refine ⟨fun {hop other} found => ?_, fun {other c'} listed => ?_⟩
      · rw [lookup, Option.or_eq_some_iff] at found
        rcases found with old | ⟨-, new⟩
        · obtain ⟨c', listed, same⟩ := holds.listed old
          exact ⟨c', get?_insert l c listed, same⟩
        · split at new
          · rename_i same
            cases new
            exact ⟨c, by rw [get?_insert_free free, if_pos rfl], same.symm⟩
          · cases new
      · rw [lookup, Option.isSome_or]
        rw [get?_insert_free free] at listed
        split at listed
        · cases listed
          simp
        · simp [holds.named listed]
  fail holds _ _ := ⟨holds.listed, holds.named⟩

end ExportList

-- A declaration, by its file and name, or a type parameter of one.
inductive Referent where
  | declaration (hop : Hop)
  | parameter (owner : Hop) (name : String)
deriving DecidableEq, Repr

-- The identifiers of a descriptor, and what those of a lineage stand for, in the same order.
def Descriptor.identifiers (d : Descriptor) : List String := d.id :: (d.parents ++ d.generics.map (·.id))

def Lineage.referents (l : Lineage) : List Referent :=
  .declaration l.symbol.hop ::
    (l.parents.map (.declaration ·.symbol.hop) ++ l.symbol.generics.keys.map (.parameter l.symbol.hop))

namespace Descriptor

def parameterId (id parameter : String) : String := s!"{id}__generic_{parameter}"

variable {lineage : Lineage} {descriptor : Descriptor} {exports : ExportList}

theorem identifiers_eq (described : ofLineage? base name lineage exports = some descriptor) :
    descriptor.identifiers = componentId base name :: (lineage.parents.map (parentId base exports ·.symbol) ++
      lineage.symbol.generics.keys.map (parameterId (componentId base name))) := by
  unfold ofLineage? at described
  split at described
  · cases described
    simp only [identifiers, genericsOf, Ordered.keys, List.map_map]
    rfl
  · cases described

theorem length_identifiers (described : ofLineage? base name lineage exports = some descriptor) :
    descriptor.identifiers.length = lineage.referents.length := by
  rw [identifiers_eq described, Lineage.referents]
  simp

theorem mem_identifiers (described : ofLineage? base name lineage exports = some descriptor) :
    (text, thing) ∈ descriptor.identifiers.zip lineage.referents ↔
      (text = componentId base name ∧ thing = .declaration lineage.symbol.hop) ∨
      (∃ parent ∈ lineage.parents, text = parentId base exports parent.symbol ∧ thing = .declaration parent.symbol.hop) ∨
      ∃ parameter ∈ lineage.symbol.generics.keys, text = parameterId (componentId base name) parameter ∧
        thing = .parameter lineage.symbol.hop parameter := by
  rw [identifiers_eq described, Lineage.referents, List.zip_cons_cons, List.zip_append (by simp), List.zip_map', List.zip_map']
  simp only [List.mem_cons, Prod.mk.injEq, List.mem_append, List.mem_map]
  grind

end Descriptor

namespace Generate

variable {plan : Plan}

-- What stands between the identifier of a class and a type parameter, before one more underscore.
def mark : List Char := "__generic".toList

theorem mark_unbordered : Unbordered mark := by
  have checked : ∀ rest ∈ mark.tails, rest ∈ mark.inits → rest = [] ∨ rest = mark := by decide
  intro rest ends opens
  exact checked rest ((List.mem_tails ..).mpr ends) ((List.mem_inits ..).mpr opens)

def Plan.Lists (plan : Plan) (name : String) (lineage : Lineage) : Prop :=
  ∃ c, plan.exports.classes.get? name = some c ∧ c.hop = lineage.symbol.hop

-- A declaration that has an exported name, or a type parameter.
def Plan.Exports (plan : Plan) : Referent → Prop
  | .declaration hop => (plan.exports.names.lookup hop).isSome
  | .parameter _ _ => True

-- The identifiers of a package that are made from a name it exports.
inductive Plan.Stands (plan : Plan) (name : String) : String → Referent → Prop where
  | declaration (listed : plan.exports.classes.get? name = some c) :
      Stands plan name (Descriptor.componentId plan.package.name name) (.declaration c.hop)
  | parameter (listed : plan.exports.classes.get? name = some c) :
      Stands plan name (Descriptor.parameterId (Descriptor.componentId plan.package.name name) parameter)
        (.parameter c.hop parameter)

theorem componentId_toList (base name : String) :
    (Descriptor.componentId base name).toList = base.toList ++ (':' :: name.toList) := by
  change (base ++ ":" ++ name).toList = _
  rw [String.toList_append, String.toList_append, List.append_assoc]
  rfl

theorem parameterId_toList (id parameter : String) :
    (Descriptor.parameterId id parameter).toList = id.toList ++ (mark ++ ('_' :: parameter.toList)) := by
  change (id ++ "__generic_" ++ parameter).toList = _
  rw [String.toList_append, String.toList_append, List.append_assoc]
  rfl

theorem Plan.Stands.exported (stands : plan.Stands name text thing) : name ∈ plan.exports.classes.keys := by
  cases stands with
  | declaration listed => exact Ordered.get?_isSome_iff.mp (by rw [listed]; rfl)
  | parameter listed => exact Ordered.get?_isSome_iff.mp (by rw [listed]; rfl)

-- The identifier of a type parameter has the mark behind the package, that of a class without the mark in its name does
-- not.
theorem componentId_ne_parameterId (free : ¬ mark <:+: name.toList) (base other parameter : String) :
    Descriptor.componentId base name ≠ Descriptor.parameterId (Descriptor.componentId base other) parameter := by
  intro equal
  have texts := congrArg String.toList equal
  rw [parameterId_toList, componentId_toList, componentId_toList, List.append_assoc, List.append_cancel_left_eq,
    List.cons_append, List.cons.injEq] at texts
  refine free ?_
  rw [texts.2]
  exact ⟨other.toList, '_' :: parameter.toList, by simp⟩

-- Among classes, an identifier stands for one.
theorem Plan.Stands.hop_unique (one : plan.Stands name text (.declaration hop))
    (two : plan.Stands other text (.declaration hop')) : hop = hop' := by
  cases one with
  | @declaration c listed =>
    generalize equal : Descriptor.componentId plan.package.name name = text at two
    cases two with
    | @declaration c' listed' =>
      have texts := congrArg String.toList equal
      rw [componentId_toList, componentId_toList, List.append_cancel_left_eq, List.cons.injEq, String.toList_inj] at texts
      rw [texts.2, listed'] at listed
      cases listed
      rfl

-- Made from names without the mark, it stands for one thing.
theorem Plan.Stands.unique (free : ¬ mark <:+: name.toList) (free' : ¬ mark <:+: other.toList)
    (one : plan.Stands name text thing) (two : plan.Stands other text thing') : thing = thing' := by
  cases one with
  | @declaration c listed =>
    have own : plan.Stands name _ (.declaration c.hop) := .declaration listed
    generalize equal : Descriptor.componentId plan.package.name name = text at two own
    cases two with
    | declaration listed' => rw [own.hop_unique (.declaration listed')]
    | parameter => exact absurd equal (componentId_ne_parameterId free _ _ _)
  | @parameter c parameter listed =>
    generalize equal : Descriptor.parameterId (Descriptor.componentId plan.package.name name) parameter = text at two
    cases two with
    | declaration => exact absurd equal.symm (componentId_ne_parameterId free' _ _ _)
    | @parameter c' parameter' listed' =>
      have texts := congrArg String.toList equal
      rw [parameterId_toList, parameterId_toList, componentId_toList, componentId_toList, List.append_assoc,
        List.append_assoc, List.append_cancel_left_eq, List.cons_append, List.cons_append, List.cons.injEq] at texts
      obtain ⟨names, parameters⟩ := mark_unbordered.split_unique free free' texts.2
      rw [String.toList_inj] at names
      rw [List.cons.injEq, String.toList_inj] at parameters
      rw [names, listed'] at listed
      cases listed
      rw [parameters.2]

-- A lineage and its descriptor as they are found when the turn of a class comes.
def Told (plan : Plan) (ignore : IgnoreList) (start : Work Library) (name : String) (lineage : Lineage)
    (descriptor : Descriptor) : Prop :=
  ∃ reached, Turn plan (plan.selected ignore) start name reached ∧ Describes plan name reached lineage descriptor

theorem Prepared.namesListed (ready : Prepared settings tree plan start) : plan.exports.NamesListed := by
  obtain ⟨_, _, enumerated⟩ := ready.exports
  exact exportedClasses_kept ExportList.namesListed_kept ⟨nofun, nofun⟩ enumerated

theorem Describes.stands (names : plan.exports.NamesListed) (describes : Describes plan name w lineage descriptor)
    (lists : plan.Lists name lineage) (mentioned : (text, thing) ∈ descriptor.identifiers.zip lineage.referents)
    (exported : plan.Exports thing) : ∃ exportedName, plan.Stands exportedName text thing := by
  obtain ⟨c, listed, hop⟩ := lists
  rcases (Descriptor.mem_identifiers describes.2).mp mentioned with ⟨rfl, rfl⟩ | ⟨parent, -, rfl, rfl⟩ |
    ⟨parameter, -, rfl, rfl⟩
  · rw [← hop]
    exact ⟨name, .declaration listed⟩
  · obtain ⟨exportedName, found⟩ := Option.isSome_iff_exists.mp exported
    obtain ⟨c', listed', hop'⟩ := names.listed found
    have known : plan.exports.exportedName? parent.symbol.file parent.symbol.name = some exportedName := found
    rw [Descriptor.parentId, known, Option.getD_some, ← hop']
    exact ⟨exportedName, .declaration listed'⟩
  · rw [← hop]
    exact ⟨name, .parameter listed⟩

end Generate

open Generate

-- For every run: each written class has a descriptor whose identifiers stand for the class, its parents and its type
-- parameters, and each written file holds that of the last class whose path leads there. Equal identifiers in descriptors
-- of classes that are the ones listed under their names stand for the same thing, as far as the package exports it, if
-- both are classes or the exported names that they are made from do not contain the mark. A parent that is not exported
-- keeps its declared name.
theorem run_identifies {settings : Settings} {w w' : Work Library} {report : GenerateReport}
    (ran : Generate.run settings w = some (.ok report, w')) :
    ∃ plan ignore start, prepare settings w = some (.ok (plan, ignore), start) ∧
      (∀ name path, (name, path) ∈ report.written →
        (∃ lineage descriptor, Told plan ignore start name lineage descriptor) ∧
        ∃ place last lastPath lineage descriptor, w'.state.tree.locate path = .ok place ∧
          (last, lastPath) ∈ report.written ∧ w'.state.tree.locate lastPath = .ok place ∧
          Told plan ignore start last lineage descriptor ∧
          w'.state.tree.readText path = .ok descriptor.toJson.pretty) ∧
      ∀ name lineage descriptor, Told plan ignore start name lineage descriptor →
        descriptor.identifiers.length = lineage.referents.length ∧
        (∀ parent ∈ lineage.parents, plan.exports.exportedName? parent.symbol.file parent.symbol.name = none →
          (Descriptor.componentId plan.package.name parent.symbol.name, .declaration parent.symbol.hop) ∈
            descriptor.identifiers.zip lineage.referents) ∧
        (plan.Lists name lineage → plan.Exports (.declaration lineage.symbol.hop)) ∧
        ∀ other lineage' descriptor', Told plan ignore start other lineage' descriptor' →
          plan.Lists name lineage → plan.Lists other lineage' →
          ∀ text thing thing', (text, thing) ∈ descriptor.identifiers.zip lineage.referents →
            (text, thing') ∈ descriptor'.identifiers.zip lineage'.referents →
            plan.Exports thing → plan.Exports thing' →
            ∃ exported exported', plan.Stands exported text thing ∧ plan.Stands exported' text thing' ∧
              (∀ hop hop', thing = .declaration hop → thing' = .declaration hop' → thing = thing') ∧
              (¬ mark <:+: exported.toList → ¬ mark <:+: exported'.toList → thing = thing') := by
  obtain ⟨plan, ignore, start, outcomes, finished, prepared, generated, rfl, state⟩ := run_ok ran
  have names := (prepare_ok prepared).namesListed
  refine ⟨plan, ignore, start, prepared, fun name path member => ⟨?_, ?_⟩, ?_⟩
  · rw [reportOn_written] at member
    obtain ⟨reached, lineage, descriptor, turn, describes⟩ := written_described generated member
    exact ⟨lineage, descriptor, reached, turn, describes⟩
  · rw [reportOn_written] at member ⊢
    rw [state]
    obtain ⟨place, located, y, member', located', reached, lineage, descriptor, turn, describes, holds⟩ :=
      generateAll_last generated member
    exact ⟨place, y.1, y.2, lineage, descriptor, located, member', located', ⟨reached, turn, describes⟩, holds⟩
  · rintro name lineage descriptor ⟨reached, -, describes⟩
    refine ⟨Descriptor.length_identifiers describes.2, fun parent above unknown => ?_, ?_, ?_⟩
    · refine (Descriptor.mem_identifiers describes.2).mpr (.inr (.inl ⟨parent, above, ?_, rfl⟩))
      rw [Descriptor.parentId, unknown, Option.getD_none]
    · rintro ⟨c, listed, hop⟩
      exact hop ▸ names.named listed
    · rintro other lineage' descriptor' ⟨reached', -, describes'⟩ lists lists' text thing thing' one two known known'
      obtain ⟨exported, stands⟩ := describes.stands names lists one known
      obtain ⟨exported', stands'⟩ := describes'.stands names lists' two known'
      refine ⟨exported, exported', stands, stands', ?_, fun free free' => Plan.Stands.unique free free' stands stands'⟩
      rintro hop hop' rfl rfl
      rw [stands.hop_unique stands']

namespace Generate

def mentions? (plan : Plan) (name : String) : Except ResolveError Lineage → Option (List (String × Referent))
  | .error _ => none
  | .ok lineage =>
    (Descriptor.ofLineage? plan.package.name name lineage plan.exports).map fun descriptor =>
      descriptor.identifiers.zip lineage.referents

def tellBy (means : Means Library) (plan : Plan) :
    List String → Work Library → Option (List (Outcome × Option (List (String × Referent))) × Work Library)
  | [], w => some ([], w)
  | name :: rest, w =>
    (lineageBy means plan name { w with diagnostics := [] }).bind fun (found, between) =>
      let (result, done) := writeFound plan name found between
      (tellBy means plan rest { done with diagnostics := w.diagnostics }).bind fun (told, w) =>
        some (({ name, result, diagnostics := done.diagnostics }, mentions? plan name found) :: told, w)

theorem tellBy_cons {means : Means Library} {plan : Plan} {w : Work Library}
    (seen : tellBy means plan (name :: rest) w = some (told, w')) : ∃ found between result done others,
      lineageBy means plan name { w with diagnostics := [] } = some (found, between) ∧
      writeFound plan name found between = (result, done) ∧
      tellBy means plan rest { done with diagnostics := w.diagnostics } = some (others, w') ∧
      told = ({ name, result, diagnostics := done.diagnostics }, mentions? plan name found) :: others := by
  obtain ⟨⟨found, between⟩, linked, seen⟩ := Option.bind_eq_some_iff.mp seen
  dsimp only at seen
  generalize wrote : writeFound plan name found between = attempt at seen
  obtain ⟨result, done⟩ := attempt
  obtain ⟨⟨others, last⟩, all, equal⟩ := Option.bind_eq_some_iff.mp seen
  cases equal
  exact ⟨found, between, result, done, others, linked, wrote, all, rfl⟩

theorem generateAllBy_of_tellBy {means : Means Library} {plan : Plan} {w : Work Library}
    (seen : tellBy means plan names w = some (told, w')) :
    generateAllBy means plan names w = some (told.map (·.1), w') := by
  induction names generalizing w told with
  | nil =>
    cases seen
    rfl
  | cons name rest ih =>
    obtain ⟨found, between, result, done, others, linked, wrote, all, rfl⟩ := tellBy_cons seen
    rw [generateAllBy, generateClassBy, linked]
    simp only [Option.map_some, wrote, Option.bind_some, ih all, List.map_cons]

theorem told_of_tellBy (bound : Nat) {plan : Plan} {w : Work Library}
    (seen : tellBy (.within bound Library.provider) plan names w = some (told, w')) :
    List.Forall₂ (fun name x => ∀ mentions, x.2 = some mentions → ∃ reached lineage descriptor,
      Turn plan names w name reached ∧ Describes plan name reached lineage descriptor ∧
      descriptor.identifiers.zip lineage.referents = mentions) names told := by
  induction names generalizing w told with
  | nil =>
    cases seen
    exact .nil
  | cons name rest ih =>
    obtain ⟨found, between, result, done, others, linked, wrote, all, rfl⟩ := tellBy_cons seen
    have linked := lineageBy_completes (Means.within_completes bound _) plan name _ _ linked
    refine .cons (fun mentions stands => ?_) ((ih all).imp fun other x others mentions stands => ?_)
    · cases found with
      | error e => cases stands
      | ok lineage =>
        obtain ⟨descriptor, described, equal⟩ := Option.map_eq_some_iff.mp stands
        exact ⟨_, lineage, descriptor, .first plan name rest w, ⟨⟨between, linked⟩, described⟩, equal⟩
    · obtain ⟨reached, lineage, descriptor, turn, describes, equal⟩ := others mentions stands
      have attempted : generateClass plan name { w with diagnostics := [] } = some (result, done) := by
        rw [generateClass_eq, generateClassBy, linked, ← wrote]
        rfl
      exact ⟨reached, lineage, descriptor, turn.later attempted, describes, equal⟩

-- What can be seen of a run: what it lists, the classes it wrote, and what stands for what in its descriptors.
structure Sighting where
  listed : List (String × Option Hop)
  names : List (Hop × String)
  selected : List String
  written : List String
  mentions : List (Option (List (String × Referent)))
deriving DecidableEq

def sightBy (means : Means Library) (settings : Settings) (w : Work Library) : Option Sighting :=
  (prepareBy means settings w).bind fun
    | (.error _, _) => none
    | (.ok (plan, ignore), start) =>
      (tellBy means plan (plan.selected ignore) start).map fun (told, _) =>
        { listed := plan.exports.classes.keys.map fun name => (name, (plan.exports.classes.get? name).map (·.hop))
          names := plan.exports.names
          selected := plan.selected ignore
          written := (told.filterMap (·.1.written?)).map (·.1)
          mentions := told.map (·.2) }

theorem sight_within (bound : Nat) {settings : Settings} {w : Work Library} {s : Sighting}
    (seen : sightBy (.within bound Library.provider) settings w = some s) : ∃ report w' plan ignore start,
      Generate.run settings w = some (.ok report, w') ∧ report.written.map (·.1) = s.written ∧
      prepare settings w = some (.ok (plan, ignore), start) ∧
      plan.exports.classes.keys.map (fun name => (name, (plan.exports.classes.get? name).map (·.hop))) = s.listed ∧
      plan.exports.names = s.names ∧
      List.Forall₂ (fun name stands => ∀ mentions, stands = some mentions → ∃ lineage descriptor,
        Told plan ignore start name lineage descriptor ∧ descriptor.identifiers.zip lineage.referents = mentions)
        s.selected s.mentions := by
  obtain ⟨⟨_ | ⟨plan, ignore⟩, start⟩, prepared, seen⟩ := Option.bind_eq_some_iff.mp seen
  · cases seen
  obtain ⟨⟨told, finished⟩, one, rfl⟩ := Option.map_eq_some_iff.mp seen
  have ran : runBy (.within bound Library.provider) settings w =
      some (.ok (reportOn plan ignore (told.map (·.1)) finished).1, (reportOn plan ignore (told.map (·.1)) finished).2) := by
    rw [runBy, prepared]
    simp only [Option.bind_some, finishBy, generateAllBy_of_tellBy one, Option.map_some]
  refine ⟨_, _, plan, ignore, start, run_within bound ran, ?_, prepare_within bound prepared, rfl, rfl, ?_⟩
  · rw [reportOn_written, List.filterMap_map]
    rfl
  · refine List.forall₂_map_right_iff.mpr ((told_of_tellBy bound one).imp fun name x stands mentions equal => ?_)
    obtain ⟨reached, lineage, descriptor, turn, describes, same⟩ := stands mentions equal
    exact ⟨lineage, descriptor, ⟨reached, turn, describes⟩, same⟩

end Generate

-- A class under another name than its own, and one that extends it.
def catalog : Work Library :=
  Generate.project
    [ ("package.json", "\x7b\"name\":\"catalog\"\x7d"),
      ("index.ts", "export \x7b Impl as Base, Child \x7d from './lib';\n"),
      ("lib.ts", "export class Impl<T> \x7b\x7d\nexport class Child extends Impl<string> \x7b\x7d\n") ]

def catalogHop (name : String) : Hop := { file := [.name "lib.ts"], name }

theorem catalog_seen : sightBy (.within 20 Library.provider) .defaults catalog = some
    { listed := [("Base", some (catalogHop "Impl")), ("Child", some (catalogHop "Child"))]
      names := [(catalogHop "Impl", "Base"), (catalogHop "Child", "Child")]
      selected := ["Base", "Child"]
      written := ["Base", "Child"]
      mentions :=
        [ some [("catalog:Base", .declaration (catalogHop "Impl")),
            ("catalog:Base__generic_T", .parameter (catalogHop "Impl") "T")],
          some [("catalog:Child", .declaration (catalogHop "Child")),
            ("catalog:Base", .declaration (catalogHop "Impl"))] ] } := by
  decide +kernel

theorem run_identifies_catalog : ∃ report w' plan ignore start base baseDescriptor child childDescriptor,
    Generate.run .defaults catalog = some (.ok report, w') ∧ report.written.map (·.1) = ["Base", "Child"] ∧
    prepare .defaults catalog = some (.ok (plan, ignore), start) ∧
    Told plan ignore start "Base" base baseDescriptor ∧ Told plan ignore start "Child" child childDescriptor ∧
    (∀ exported ∈ plan.exports.classes.keys, ¬ mark <:+: exported.toList) ∧
    plan.Lists "Base" base ∧ plan.Lists "Child" child ∧ plan.Exports (.declaration (catalogHop "Impl")) ∧
    ("catalog:Base", .declaration (catalogHop "Impl")) ∈ childDescriptor.identifiers.zip child.referents ∧
    ∀ thing, ("catalog:Base", thing) ∈ baseDescriptor.identifiers.zip base.referents → plan.Exports thing →
      thing = .declaration (catalogHop "Impl") := by
  obtain ⟨report, w', plan, ignore, start, ran, written, prepared, listed, names, told⟩ := sight_within 20 catalog_seen
  obtain ⟨first, told⟩ := List.forall₂_cons.mp told
  obtain ⟨base, baseDescriptor, toldBase, equal⟩ := first _ rfl
  obtain ⟨child, childDescriptor, toldChild, equal'⟩ := (List.forall₂_cons.mp told).1 _ rfl
  have keys : plan.exports.classes.keys = ["Base", "Child"] := by
    simpa [Function.comp_def] using congrArg (List.map Prod.fst) listed
  have free : ∀ exported ∈ plan.exports.classes.keys, ¬ mark <:+: exported.toList := by
    rw [keys]
    decide
  rw [keys] at listed
  simp only [List.map_cons, List.map_nil, List.cons.injEq, Prod.mk.injEq, true_and, and_true, Option.map_eq_some_iff] at listed
  obtain ⟨⟨c, got, hop⟩, c', got', hop'⟩ := listed
  have lists : plan.Lists "Base" base :=
    ⟨c, got, hop.trans (Referent.declaration.inj (Prod.mk.inj (List.cons.inj equal).1).2).symm⟩
  have lists' : plan.Lists "Child" child :=
    ⟨c', got', hop'.trans (Referent.declaration.inj (Prod.mk.inj (List.cons.inj equal').1).2).symm⟩
  have known : plan.Exports (.declaration (catalogHop "Impl")) := by
    change (plan.exports.names.lookup (catalogHop "Impl")).isSome = true
    rw [names]
    rfl
  have parent : ("catalog:Base", .declaration (catalogHop "Impl")) ∈ childDescriptor.identifiers.zip child.referents := by
    rw [equal']
    exact List.mem_cons_of_mem _ List.mem_cons_self
  obtain ⟨plan', ignore', start', prepared', -, unambiguous⟩ := run_identifies ran
  rw [prepared] at prepared'
  cases prepared'
  refine ⟨report, w', plan, ignore, start, base, baseDescriptor, child, childDescriptor, ran, written, prepared, toldBase,
    toldChild, free, lists, lists', known, parent, fun thing member exports => ?_⟩
  obtain ⟨exported, exported', stands, stands', -, same⟩ :=
    (unambiguous _ _ _ toldBase).2.2.2 _ _ _ toldChild lists lists' _ _ _ member parent exports known
  exact same (free exported stands.exported) (free exported' stands'.exported)

-- A class with a type parameter, a class under the identifier of that parameter, and one that extends a class which
-- is not exported and has the name of the first.
def shelf : Work Library :=
  Generate.project
    [ ("package.json", "\x7b\"name\":\"shelf\"\x7d"),
      ("index.ts", "export class Base<T> \x7b\x7d\nexport class Base__generic_T \x7b\x7d\n" ++
        "export \x7b Derived \x7d from './derived';\n"),
      ("derived.ts", "class Base \x7b\x7d\nexport class Derived extends Base \x7b\x7d\n") ]

def shelfEntry (name : String) : Hop := { file := [.current, .name "index.ts"], name }
def shelfModule (name : String) : Hop := { file := [.name "derived.ts"], name }

theorem shelf_seen : sightBy (.within 20 Library.provider) .defaults shelf = some
    { listed := [("Base", some (shelfEntry "Base")), ("Base__generic_T", some (shelfEntry "Base__generic_T")),
        ("Derived", some (shelfModule "Derived"))]
      names := [(shelfEntry "Base", "Base"), (shelfEntry "Base__generic_T", "Base__generic_T"),
        (shelfModule "Derived", "Derived")]
      selected := ["Base", "Base__generic_T", "Derived"]
      written := ["Base", "Base__generic_T", "Derived"]
      mentions :=
        [ some [("shelf:Base", .declaration (shelfEntry "Base")),
            ("shelf:Base__generic_T", .parameter (shelfEntry "Base") "T")],
          some [("shelf:Base__generic_T", .declaration (shelfEntry "Base__generic_T"))],
          some [("shelf:Derived", .declaration (shelfModule "Derived")),
            ("shelf:Base", .declaration (shelfModule "Base"))] ] } := by
  decide +kernel

-- The parent of one class is not the class that has its identifier, and a type parameter has the identifier of a class.
theorem identifiers_clash : ∃ report w' plan ignore start,
    Generate.run .defaults shelf = some (.ok report, w') ∧
    report.written.map (·.1) = ["Base", "Base__generic_T", "Derived"] ∧
    prepare .defaults shelf = some (.ok (plan, ignore), start) ∧
    ∃ base baseDescriptor tag tagDescriptor derived derivedDescriptor,
      Told plan ignore start "Base" base baseDescriptor ∧ Told plan ignore start "Base__generic_T" tag tagDescriptor ∧
      Told plan ignore start "Derived" derived derivedDescriptor ∧
      ("shelf:Base", .declaration (shelfEntry "Base")) ∈ baseDescriptor.identifiers.zip base.referents ∧
      ("shelf:Base", .declaration (shelfModule "Base")) ∈ derivedDescriptor.identifiers.zip derived.referents ∧
      shelfEntry "Base" ≠ shelfModule "Base" ∧
      ("shelf:Base__generic_T", .parameter (shelfEntry "Base") "T") ∈ baseDescriptor.identifiers.zip base.referents ∧
      ("shelf:Base__generic_T", .declaration (shelfEntry "Base__generic_T")) ∈
        tagDescriptor.identifiers.zip tag.referents := by
  obtain ⟨report, w', plan, ignore, start, ran, written, prepared, -, -, told⟩ := sight_within 20 shelf_seen
  obtain ⟨first, told⟩ := List.forall₂_cons.mp told
  obtain ⟨second, told⟩ := List.forall₂_cons.mp told
  obtain ⟨base, baseDescriptor, toldBase, one⟩ := first _ rfl
  obtain ⟨tag, tagDescriptor, toldTag, two⟩ := second _ rfl
  obtain ⟨derived, derivedDescriptor, toldDerived, three⟩ := (List.forall₂_cons.mp told).1 _ rfl
  refine ⟨report, w', plan, ignore, start, ran, written, prepared, base, baseDescriptor, tag, tagDescriptor, derived,
    derivedDescriptor, toldBase, toldTag, toldDerived, ?_⟩
  rw [one, two, three]
  exact ⟨by simp, by simp, by decide, by simp, by simp⟩

end ComponentAtlas
