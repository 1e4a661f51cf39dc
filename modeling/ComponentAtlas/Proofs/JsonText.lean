import ComponentAtlas.Generate.Descriptor
import ComponentAtlas.Json.Reader
import Mathlib.Data.List.Basic

namespace ComponentAtlas
open Text (jsonEscape jsonQuoted hexDigits padLeft)

variable {rest rest' : List Char}

namespace Json.Reader

def hexNumber (digits : List Char) : Option Nat :=
  (digits.mapM hexValue).map fun values => values.foldl (fun n d => 16 * n + d) 0

-- The character that comes first, and what is behind it.
def unescape : List Char → Option (Char × List Char)
  | '\\' :: 'u' :: rest => (hexNumber (rest.take 4)).map fun n => (Char.ofNat n, rest.drop 4)
  | '\\' :: x :: rest => (simpleEscape x).map fun c => (c, rest)
  | c :: rest => some (c, rest)
  | [] => none

theorem hexNumber_control : ∀ n < 32, (padLeft 4 '0' (hexDigits n)).length = 4 ∧
    hexNumber (padLeft 4 '0' (hexDigits n)) = some n := by
  decide +kernel

theorem unescape_jsonEscape (c : Char) (rest : List Char) : unescape (jsonEscape c ++ rest) = some (c, rest) := by
  by_cases quote : c = '"'
  · subst c; rfl
  by_cases slash : c = '\\'
  · subst c; rfl
  by_cases feed : c = '\n'
  · subst c; rfl
  by_cases back : c = '\r'
  · subst c; rfl
  by_cases tab : c = '\t'
  · subst c; rfl
  by_cases erase : c = '\x08'
  · subst c; rfl
  by_cases page : c = '\x0c'
  · subst c; rfl
  by_cases control : c < '\x20'
  · obtain ⟨four, number⟩ := hexNumber_control c.toNat control
    have escaped : jsonEscape c = '\\' :: 'u' :: padLeft 4 '0' (hexDigits c.toNat) := by
      simp [jsonEscape, quote, slash, feed, back, tab, erase, page, control]
    rw [escaped, List.cons_append, List.cons_append, unescape, List.take_left' four, List.drop_left' four, number]
    simp
  · have plain : jsonEscape c = [c] := by simp [jsonEscape, quote, slash, feed, back, tab, erase, page, control]
    rw [plain]
    unfold unescape
    split <;> simp_all

end Json.Reader

namespace JsonValue
open Json.Reader (unescape unescape_jsonEscape)

theorem head_jsonEscape (c : Char) (rest : List Char) : (jsonEscape c ++ rest).head? ≠ some '"' := by
  intro quote
  cases cs : jsonEscape c ++ rest with
  | nil => simp [cs] at quote
  | cons x more =>
    obtain rfl : x = '"' := by simpa [cs] using quote
    have same := (unescape_jsonEscape c rest).symm.trans (congrArg unescape cs)
    obtain ⟨rfl, -⟩ : c = '"' ∧ rest = more := by simpa [unescape] using same
    cases cs

theorem escaped_cancel {cs cs' : List Char}
    (same : cs.flatMap jsonEscape ++ '"' :: rest = cs'.flatMap jsonEscape ++ '"' :: rest') : cs = cs' ∧ rest = rest' := by
  induction cs generalizing cs' with
  | nil =>
    cases cs' with
    | nil => exact ⟨rfl, (List.cons.inj same).2⟩
    | cons c' cs' =>
      rw [List.flatMap_cons, List.append_assoc] at same
      exact absurd (congrArg List.head? same).symm (head_jsonEscape c' _)
  | cons c cs ih =>
    rw [List.flatMap_cons, List.append_assoc] at same
    cases cs' with
    | nil => exact absurd (congrArg List.head? same) (head_jsonEscape c _)
    | cons c' cs' =>
      rw [List.flatMap_cons, List.append_assoc] at same
      have first := congrArg unescape same
      rw [unescape_jsonEscape, unescape_jsonEscape] at first
      obtain ⟨rfl, behind⟩ := Prod.mk.inj (Option.some.inj first)
      obtain ⟨rfl, rest⟩ := ih behind
      exact ⟨rfl, rest⟩

theorem jsonQuoted_cancel {text text' : String}
    (same : (jsonQuoted text).toList ++ rest = (jsonQuoted text').toList ++ rest') : text = text' ∧ rest = rest' := by
  have inner : text.toList.flatMap jsonEscape ++ '"' :: rest = text'.toList.flatMap jsonEscape ++ '"' :: rest' := by
    simpa [jsonQuoted] using same
  obtain ⟨chars, rest⟩ := escaped_cancel inner
  exact ⟨String.toList_inj.mp chars, rest⟩

-- A numeral would end here.
def Stops (rest : List Char) : Prop := ∀ c ∈ rest.head?, c.isDigit = false

theorem digits_cancel {n m : Nat} (stops : Stops rest) (stops' : Stops rest')
    (same : (toString n).toList ++ rest = (toString m).toList ++ rest') : n = m ∧ rest = rest' := by
  have numeral {rest : List Char} (stops : Stops rest) (n : Nat) :
      ((toString n).toList ++ rest).takeWhile Char.isDigit = Nat.toDigits 10 n := by
    have digits : (toString n).toList = Nat.toDigits 10 n := Nat.toList_repr
    rw [digits, List.takeWhile_append_of_pos fun c => Nat.isDigit_of_mem_toDigits (by decide) (by decide)]
    cases rest with
    | nil => simp
    | cons c more => simp [stops c rfl]
  have digits : Nat.toDigits 10 n = Nat.toDigits 10 m := by rw [← numeral stops n, same, numeral stops' m]
  have value (n : Nat) : Nat.ofDigitChars 10 (Nat.toDigits 10 n) 0 = n :=
    Nat.ofDigitChars_toDigits (by decide) (by decide)
  obtain rfl : n = m := by rw [← value n, digits, value m]
  exact ⟨rfl, List.append_cancel_left same⟩

-- The text of a value shows which value it is and where it ends.
def Cancels (print : α → String) (a : α) : Prop :=
  ∀ b rest rest', Stops rest → Stops rest' → (print a).toList ++ rest = (print b).toList ++ rest' → a = b ∧ rest = rest'

def behind (level : Nat) (last : String) : List String → List Char
  | [] => '\n' :: (indent level ++ last).toList
  | item :: more => ',' :: '\n' :: ((indent (level + 1) ++ item).toList ++ behind level last more)

theorem toList_spread (level : Nat) (first last item : String) (more : List String) :
    (spread level first last (item :: more)).toList =
      first.toList ++ '\n' :: ((indent (level + 1) ++ item).toList ++ behind level last more) := by
  have joined (item : String) (more : List String) :
      (",\n".intercalate ((item :: more).map (indent (level + 1) ++ ·))).toList ++ '\n' :: (indent level ++ last).toList =
        (indent (level + 1) ++ item).toList ++ behind level last more := by
    induction more generalizing item with
    | nil => rw [List.map_singleton, String.intercalate_singleton, behind]
    | cons next more ih =>
      have later := ih next
      rw [List.map_cons] at later
      rw [List.map_cons, List.map_cons, String.intercalate_cons_cons, String.toList_append, String.toList_append,
        List.append_assoc, later, List.append_assoc, behind]
      rfl
  rw [← joined item more]
  simp [spread]

theorem stops_behind (level : Nat) (last : String) (more : List String) : Stops (behind level last more ++ rest) := by
  intro c first
  cases more with
  | nil =>
    obtain rfl : '\n' = c := by simpa [behind] using first
    rfl
  | cons item more =>
    obtain rfl : ',' = c := by simpa [behind] using first
    rfl

theorem behind_cancel {print : α → String} {as bs : List α} (each : ∀ a ∈ as, Cancels print a)
    (same : behind level last (as.map print) ++ rest = behind level last (bs.map print) ++ rest') : as = bs ∧ rest = rest' := by
  induction as generalizing bs with
  | nil =>
    cases bs with
    | nil => exact ⟨rfl, List.append_cancel_left same⟩
    | cons b bs => simp [behind] at same
  | cons a as ih =>
    cases bs with
    | nil => simp [behind] at same
    | cons b bs =>
      have texts : (print a).toList ++ (behind level last (as.map print) ++ rest) =
          (print b).toList ++ (behind level last (bs.map print) ++ rest') := by
        simpa [behind] using same
      obtain ⟨rfl, more⟩ := each a List.mem_cons_self b _ _ (stops_behind level last _) (stops_behind level last _) texts
      obtain ⟨rfl, rest⟩ := ih (fun a member => each a (List.mem_cons_of_mem _ member)) more
      exact ⟨rfl, rest⟩

theorem spread_cancel {print : α → String} {as bs : List α} (each : ∀ a ∈ as, Cancels print a)
    (closing : last.toList = [c]) (visible : c ≠ '\n')
    (same : (spread level first last (as.map print)).toList ++ rest =
      (spread level first last (bs.map print)).toList ++ rest') : as = bs ∧ rest = rest' := by
  have empty : (spread level first last []).toList = first.toList ++ [c] := by
    rw [spread, String.toList_append, closing]
  have unlike {item : String} {more : List String} {rest rest' : List Char}
      (same : (spread level first last []).toList ++ rest = (spread level first last (item :: more)).toList ++ rest') :
      False := by
    rw [empty, toList_spread, List.append_assoc, List.append_assoc] at same
    exact visible (List.cons.inj (List.append_cancel_left same)).1
  cases as with
  | nil =>
    cases bs with
    | nil => exact ⟨rfl, List.append_cancel_left same⟩
    | cons b bs => exact (unlike same).elim
  | cons a as =>
    cases bs with
    | nil => exact (unlike same.symm).elim
    | cons b bs =>
      rw [List.map_cons, List.map_cons, toList_spread, toList_spread] at same
      have texts : (print a).toList ++ (behind level last (as.map print) ++ rest) =
          (print b).toList ++ (behind level last (bs.map print) ++ rest') := by
        simpa using same
      obtain ⟨rfl, more⟩ := each a List.mem_cons_self b _ _ (stops_behind level last _) (stops_behind level last _) texts
      obtain ⟨rfl, rest⟩ := behind_cancel (fun a member => each a (List.mem_cons_of_mem _ member)) more
      exact ⟨rfl, rest⟩

theorem prettyItems_eq (level : Nat) (items : List JsonValue) :
    prettyItems level items = items.map (prettyAt level) := by
  induction items with
  | nil => rfl
  | cons item more ih => rw [prettyItems, ih, List.map_cons]

def prettyField (level : Nat) (field : String × JsonValue) : String :=
  jsonQuoted field.1 ++ ": " ++ field.2.prettyAt level

theorem prettyFields_eq (level : Nat) (fields : List (String × JsonValue)) :
    prettyFields level fields = fields.map (prettyField level) := by
  induction fields with
  | nil => rfl
  | cons field more ih => rw [prettyFields, ih, List.map_cons, prettyField]

theorem prettyField_cancels (value : Cancels (prettyAt level) v) : Cancels (prettyField level) (key, v) := by
  rintro ⟨key', v'⟩ rest rest' stops stops' same
  have texts : (jsonQuoted key).toList ++ (':' :: ' ' :: ((v.prettyAt level).toList ++ rest)) =
      (jsonQuoted key').toList ++ (':' :: ' ' :: ((v'.prettyAt level).toList ++ rest')) := by
    simpa [prettyField] using same
  obtain ⟨rfl, more⟩ := jsonQuoted_cancel texts
  obtain ⟨rfl, rest⟩ := value v' rest rest' stops stops' (by simpa using more)
  exact ⟨rfl, rest⟩

-- What a text begins with, all digits being one.
def opening : JsonValue → Char
  | null => 'n'
  | bool true => 't'
  | bool false => 'f'
  | nat _ => '0'
  | str _ => '"'
  | arr _ => '['
  | obj _ => '\x7b'

theorem spread_opening (level : Nat) (first last : String) (items : List String) :
    ∃ more, (spread level first last items).toList = first.toList ++ more := by
  cases items with
  | nil => exact ⟨_, String.toList_append⟩
  | cons item more => exact ⟨_, toList_spread level first last item more⟩

theorem prettyAt_opening (level : Nat) (v : JsonValue) (rest : List Char) :
    (((v.prettyAt level).toList ++ rest).head?).map (fun c => if c.isDigit then '0' else c) = some v.opening := by
  cases v with
  | null => simp [prettyAt, opening]
  | bool value => cases value <;> simp [prettyAt, opening]
  | nat n =>
    have numeral : (prettyAt level (nat n)).toList = Nat.toDigits 10 n := Nat.toList_repr
    rw [numeral]
    cases digits : Nat.toDigits 10 n with
    | nil => exact absurd digits Nat.toDigits_ne_nil
    | cons c more =>
      have digit : c.isDigit = true :=
        Nat.isDigit_of_mem_toDigits (by decide) (by decide) (digits ▸ List.mem_cons_self)
      simp [digit, opening]
  | str text => simp [prettyAt, jsonQuoted, opening]
  | arr items =>
    obtain ⟨more, text⟩ := spread_opening level "[" "]" (prettyItems (level + 1) items)
    simp [prettyAt, text, opening]
  | obj fields =>
    obtain ⟨more, text⟩ := spread_opening level "\x7b" "\x7d" (prettyFields (level + 1) fields)
    simp [prettyAt, text, opening]

-- Values with the same opening: they are the same, or of one kind that holds something.
inductive Pair : JsonValue → JsonValue → Prop where
  | same (v : JsonValue) : Pair v v
  | nat (n m : Nat) : Pair (.nat n) (.nat m)
  | str (text text' : String) : Pair (.str text) (.str text')
  | arr (items items' : List JsonValue) : Pair (.arr items) (.arr items')
  | obj (fields fields' : List (String × JsonValue)) : Pair (.obj fields) (.obj fields')

theorem pair_of_opening {v v' : JsonValue} (alike : v.opening = v'.opening) : Pair v v' := by
  have truth {value value' : Bool} (alike : (bool value).opening = (bool value').opening) : value = value' := by
    cases value <;> cases value' <;> simp [opening] at alike ⊢
  cases v with
  | bool value =>
    cases v' with
    | bool value' => exact truth alike ▸ .same _
    | _ => cases value <;> simp [opening] at alike
  | _ =>
    cases v' with
    | bool value' => cases value' <;> simp [opening] at alike
    | _ => first | constructor | simp [opening] at alike

-- A value cancels if what is inside it does.
theorem cancels_of_inside (v : JsonValue) (level : Nat)
    (items : ∀ items, v = arr items → ∀ item ∈ items, Cancels (prettyAt (level + 1)) item)
    (fields : ∀ fields, v = obj fields → ∀ field ∈ fields, Cancels (prettyField (level + 1)) field) :
    Cancels (prettyAt level) v := by
  intro v' rest rest' stops stops' same
  have alike : v.opening = v'.opening := by
    rw [← Option.some_inj, ← prettyAt_opening level v rest, same, prettyAt_opening]
  cases pair_of_opening alike with
  | same => exact ⟨rfl, List.append_cancel_left same⟩
  | nat n m =>
    obtain ⟨rfl, rest⟩ := digits_cancel stops stops' same
    exact ⟨rfl, rest⟩
  | str text text' =>
    obtain ⟨rfl, rest⟩ := jsonQuoted_cancel same
    exact ⟨rfl, rest⟩
  | arr inner inner' =>
    rw [prettyAt, prettyAt, prettyItems_eq, prettyItems_eq] at same
    obtain ⟨rfl, rest⟩ := spread_cancel (items inner rfl) rfl (by decide) same
    exact ⟨rfl, rest⟩
  | obj inner inner' =>
    rw [prettyAt, prettyAt, prettyFields_eq, prettyFields_eq] at same
    obtain ⟨rfl, rest⟩ := spread_cancel (fields inner rfl) rfl (by decide) same
    exact ⟨rfl, rest⟩

mutual
theorem prettyAt_cancels : (v : JsonValue) → (level : Nat) → Cancels (prettyAt level) v
  | arr items, level => cancels_of_inside _ level (fun _ same => by cases same; exact items_cancel items _) nofun
  | obj fields, level => cancels_of_inside _ level nofun (fun _ same => by cases same; exact fields_cancel fields _)
  | null, level | bool _, level | nat _, level | str _, level => cancels_of_inside _ level nofun nofun
theorem items_cancel : (items : List JsonValue) → (level : Nat) → ∀ item ∈ items, Cancels (prettyAt level) item
  | [], _ => nofun
  | item :: more, level => List.forall_mem_cons.mpr ⟨prettyAt_cancels item level, items_cancel more level⟩
theorem fields_cancel : (fields : List (String × JsonValue)) → (level : Nat) →
    ∀ field ∈ fields, Cancels (prettyField level) field
  | [], _ => nofun
  | (_, v) :: more, level =>
    List.forall_mem_cons.mpr ⟨prettyField_cancels (prettyAt_cancels v level), fields_cancel more level⟩
end

theorem pretty_injective {v v' : JsonValue} (same : v.pretty = v'.pretty) : v = v' := by
  refine (prettyAt_cancels v 0 v' [] [] nofun nofun ?_).1
  exact congrArg (·.toList ++ []) same

def listed (items : List JsonValue) : Option JsonValue := if items = [] then none else some (.arr items)

theorem listed_injective {items items' : List JsonValue} (same : listed items = listed items') : items = items' := by
  unfold listed at same
  split at same
  · split at same
    · simp_all
    · cases same
  · split at same
    · cases same
    · cases same
      rfl

end JsonValue

namespace Descriptor
open JsonValue

structure Holds (fields : List (String × JsonValue)) (d : Descriptor) : Prop where
  id : fields.lookup "@id" = some (.str d.id)
  element : fields.lookup "requireElement" = some (.str d.element)
  type : fields.lookup "@type" = some (.str (if d.isAbstract then "AbstractClass" else "Class"))
  parents : fields.lookup "extends" = listed (d.parents.map .str)
  comment : fields.lookup "comment" = d.comment.map .str
  generics : fields.lookup "genericTypeParameters" = listed (d.generics.map genericJson)

theorem toJson_holds (d : Descriptor) : ∃ fields, d.toJson = .obj fields ∧ Holds fields d := by
  obtain ⟨id, element, isAbstract, parents, comment, generics⟩ := d
  refine ⟨_, rfl, rfl, rfl, rfl, ?_, ?_, ?_⟩
  · cases parents <;> cases comment <;> cases generics <;> rfl
  · cases parents <;> cases comment <;> cases generics <;> rfl
  · cases parents <;> cases comment <;> cases generics <;> rfl

-- What is found under each of the keys of a type parameter; one that has no bound or no default lacks that key.
def HoldsGeneric (g : GenericDescriptor) (v : JsonValue) : Prop :=
  ∃ fields, v = .obj fields ∧ fields.lookup "@id" = some (.str g.id) ∧ fields.lookup "range" = g.range.map .str ∧
    fields.lookup "default" = g.default.map .str

theorem genericJson_holds (g : GenericDescriptor) : HoldsGeneric g (genericJson g) := by
  obtain ⟨id, range, default⟩ := g
  refine ⟨_, rfl, rfl, ?_, ?_⟩
  · cases range <;> cases default <;> rfl
  · cases range <;> cases default <;> rfl

theorem genericJson_injective : Function.Injective genericJson := by
  rintro ⟨id, range, default⟩ ⟨id', range', default'⟩ same
  cases range <;> cases default <;> cases range' <;> cases default' <;> simp_all [genericJson, JsonValue.optional]

theorem Holds.unique (holds : Holds fields d) (holds' : Holds fields d') : d = d' := by
  have texts : Function.Injective JsonValue.str := fun _ _ same => by cases same; rfl
  obtain ⟨id, element, isAbstract, parents, comment, generics⟩ := d
  obtain ⟨id', element', isAbstract', parents', comment', generics'⟩ := d'
  obtain rfl : id = id' := texts (Option.some.inj (holds.id.symm.trans holds'.id))
  obtain rfl : element = element' := texts (Option.some.inj (holds.element.symm.trans holds'.element))
  obtain rfl : isAbstract = isAbstract' := by
    have same := texts (Option.some.inj (holds.type.symm.trans holds'.type))
    cases isAbstract <;> cases isAbstract' <;> simp at same ⊢
  obtain rfl : parents = parents' :=
    List.map_injective_iff.mpr texts (listed_injective (holds.parents.symm.trans holds'.parents))
  obtain rfl : comment = comment' := Option.map_injective texts (holds.comment.symm.trans holds'.comment)
  obtain rfl : generics = generics' :=
    List.map_injective_iff.mpr genericJson_injective (listed_injective (holds.generics.symm.trans holds'.generics))
  rfl

theorem pretty_toJson_injective {d d' : Descriptor} (same : d.toJson.pretty = d'.toJson.pretty) : d = d' := by
  obtain ⟨fields, object, holds⟩ := d.toJson_holds
  obtain ⟨fields', object', holds'⟩ := d'.toJson_holds
  have values := pretty_injective same
  rw [object, object'] at values
  cases values
  exact holds.unique holds'

end Descriptor
end ComponentAtlas
