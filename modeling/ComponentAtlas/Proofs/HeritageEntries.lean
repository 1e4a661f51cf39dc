import ComponentAtlas.Outline.OfTree
import ComponentAtlas.Proofs.GrammarShapes
import Mathlib.Data.List.Forall2

namespace ComponentAtlas.Source

theorem flatten_splitOnP (p : Node → Bool) (nodes : List Node) :
    (nodes.splitOnP p).flatten = nodes.filter (!p ·) := by
  induction nodes with
  | nil => simp
  | cons n rest ih =>
    rw [List.splitOnP_cons_eq_if_modifyHead]
    cases cut : p n with
    | true => simp [cut, ih]
    | false =>
      obtain ⟨first, more, split⟩ := List.exists_cons_of_ne_nil (List.splitOnP_ne_nil p rest)
      rw [split] at ih ⊢
      simpa [cut] using ih

namespace Node

variable {n : Node} {shape : Kind → List Node → Prop}

def entries (clause : Node) : List (List Node) := (clause.solid.drop 1).splitOnP isComma

theorem parts_solid (n : Node) : n.parts = n.solid.filter (·.kind.isNamed) := by
  simp [parts, namedChildren, solid, List.filter_filter, Bool.and_comm]

theorem childrenOf_solid (shaped : n.Shaped shape) (part : Role) :
    n.childrenOf part = n.solid.filter (·.role = some part) := by
  rw [childrenOf, solid, List.filter_filter]
  refine List.filter_congr fun c member => ?_
  cases comment : c.isComment with
  | false => simp
  | true =>
    have idle := (shaped.inside c member).idle comment
    simp [idle.role]

theorem child?_eq_head? (n : Node) (part : Role) : n.child? part = (n.childrenOf part).head? :=
  List.head?_filter.symm

variable {q : List Node → Prop} {word : String}

theorem entries_ne_nil (n : Node) : n.entries ≠ [] := List.splitOnP_ne_nil _ _

theorem entries_holds (clause : Grammar.Clause word q n.solid) : ∀ entry ∈ n.entries, q entry := by
  obtain ⟨keyword, body, solid, _, _, listed⟩ := clause
  simpa [entries, solid] using listed.pieces

-- Neither the keyword nor a comma plays a part, and neither is named.
theorem filter_entries {f : Node → Bool} (clause : Grammar.Clause word q n.solid)
    (skips : ∀ (m : Node) (text : String), m.kind = .mark text → m.role = none → f m = false) :
    n.solid.filter f = n.entries.flatten.filter f := by
  obtain ⟨keyword, body, solid, kind, role, listed⟩ := clause
  have cut : n.entries = body.splitOnP isComma := by simp [entries, solid]
  rw [cut, flatten_splitOnP, solid, List.filter_cons_of_neg (by simp [skips keyword word kind role]),
    List.filter_filter]
  refine List.filter_congr fun m member => ?_
  cases comma : m.isComma with
  | false => simp
  | true => simp [skips m "," (of_decide_eq_true comma) (listed.commas m member comma)]

theorem childrenOf_entries (shaped : n.Shaped shape) (clause : Grammar.Clause word q n.solid) (part : Role) :
    n.childrenOf part = n.entries.flatten.filter (·.role = some part) := by
  rw [childrenOf_solid shaped]
  exact filter_entries clause fun m text _ role => by simp [role]

theorem parts_entries (clause : Grammar.Clause word Grammar.TypePiece n.solid) : n.parts = n.entries.flatten := by
  rw [parts_solid, filter_entries clause fun m text kind _ => by simp [kind, Kind.isNamed]]
  refine List.filter_eq_self.mpr fun m member => ?_
  obtain ⟨entry, inside, member⟩ := List.mem_flatten.mp member
  obtain ⟨own, rfl, part⟩ := entries_holds clause entry inside
  obtain rfl := List.mem_singleton.mp member
  exact (Bool.and_eq_true_iff.mp part).1

theorem typeChildren_entries (shaped : n.Shaped shape) (clause : Grammar.Clause word Grammar.MarkedPiece n.solid) :
    n.childrenOf .type = n.entries.flatten := by
  rw [childrenOf_entries shaped clause]
  refine List.filter_eq_self.mpr fun m member => ?_
  obtain ⟨entry, inside, member⟩ := List.mem_flatten.mp member
  obtain ⟨own, rfl, _, role⟩ := entries_holds clause entry inside
  obtain rfl := List.mem_singleton.mp member
  simpa using role

-- The values of an `extends` clause stand first in their entries, the type arguments behind them.
theorem value_entries (shaped : n.Shaped shape) (clause : Grammar.Clause word Grammar.ValuePiece n.solid) :
    n.childrenOf .value = n.entries.flatMap (·.take 1) ∧ n.childrenOf .typeArguments = n.entries.flatMap List.tail := by
  rw [childrenOf_entries shaped clause, childrenOf_entries shaped clause]
  have each := entries_holds clause
  generalize n.entries = entries at each ⊢
  induction entries with
  | nil => exact ⟨rfl, rfl⟩
  | cons entry more ih =>
    obtain ⟨values, arguments⟩ := ih fun e member => each e (List.mem_cons_of_mem entry member)
    obtain ⟨value, role, _, rfl | ⟨own, rfl, role', _⟩⟩ := each entry List.mem_cons_self
    · simp [role, values, arguments]
    · simp [role, role', values, arguments]

theorem entries_short (clause : Grammar.Clause word Grammar.ValuePiece n.solid) :
    ∀ entry ∈ n.entries, entry.length ≤ 2 := by
  intro entry member
  obtain ⟨value, _, _, rfl | ⟨lists, rfl, _⟩⟩ := entries_holds clause entry member
  · exact Nat.le_succ 1
  · exact Nat.le_refl 2

theorem mem_children_of_entry {e : List Node} {c : Node} (entry : e ∈ n.entries) (member : c ∈ e) :
    c ∈ n.children := by
  have flat : c ∈ n.entries.flatten := List.mem_flatten.mpr ⟨e, entry, member⟩
  rw [entries, flatten_splitOnP] at flat
  have inside := List.mem_of_mem_drop (List.mem_filter.mp flat).1
  exact (List.mem_filter.mp inside).1

end Node
end ComponentAtlas.Source

namespace ComponentAtlas.Outline
open Source

def IsBareName (n : Node) : Prop := (n.kind = .identifier ∨ n.kind = .typeIdentifier) ∧ n.children = []

-- What is told of an entry with this subject and these lists of type arguments.
structure Tells (subject : Node) (lists : List Node) (h : Heritage) : Prop where
  text : h.text = subject.text
  arguments : h.arguments = (lists.flatMap Node.parts).map TypeText.ofNode
  name : IsBareName subject → h.form = .identifier subject.text
  other : ¬IsBareName subject → h.form = .unsupported subject.kind.label

def TellsValue (entry : List Node) (h : Heritage) : Prop :=
  ∃ subject lists, entry = subject :: lists ∧ h.range = subject.range ∧ Tells subject lists h

def TellsType (entry : List Node) (h : Heritage) : Prop :=
  ∃ n, entry = [n] ∧ h.range = n.range ∧
    if n.kind = .genericType then ∃ name lists, n.solid = name :: lists ∧ Tells name lists h else Tells n [] h

theorem isBareName_iff (shaped : Node.Shaped Grammar.shape n) :
    IsBareName n ↔ n.kind = .identifier ∨ n.kind = .typeIdentifier := by
  refine ⟨And.left, fun named => ⟨named, ?_⟩⟩
  rcases named with kind | kind
  · simpa [kind, Grammar.shape] using shaped.here (by simp [kind])
  · simpa [kind, Grammar.shape] using shaped.here (by simp [kind])

theorem typeArgumentsOf_eq (n : Node) :
    typeArgumentsOf n = (((n.childrenOf .typeArguments).take 1).flatMap Node.parts).map TypeText.ofNode := by
  rw [typeArgumentsOf, Node.child?_eq_head?]
  cases n.childrenOf .typeArguments with
  | nil => rfl
  | cons first rest => simp

theorem tells_ofType (shaped : Node.Shaped Grammar.shape n) : TellsType [n] (Heritage.ofType n) := by
  have bare := isBareName_iff shaped
  unfold Heritage.ofType
  split
  · rename_i kind
    refine ⟨n, rfl, rfl, ?_⟩
    rw [if_neg (by simp [kind])]
    exact ⟨rfl, rfl, fun _ => rfl, fun other => absurd (bare.mpr (.inr kind)) other⟩
  · rename_i kind
    refine ⟨n, rfl, rfl, ?_⟩
    rw [if_neg (by simp [kind])]
    exact ⟨rfl, rfl, fun _ => rfl, fun other => absurd (bare.mpr (.inl kind)) other⟩
  · rename_i kind
    have here : Grammar.shape .genericType n.children := kind ▸ shaped.here (by simp [kind])
    obtain ⟨name, lists, solid, role, unlike, role'⟩ := here
    have solid : n.solid = [name, lists] := solid
    have named : n.child? .name = some name := by
      simp [Node.child?_eq_head?, Node.childrenOf_solid shaped, solid, role]
    have listed : n.childrenOf .typeArguments = [lists] := by
      simp [Node.childrenOf_solid shaped, solid, role, role']
    have member : name ∈ n.children := (List.mem_filter.mp (solid ▸ List.mem_cons_self : name ∈ n.solid)).1
    have bare := isBareName_iff (shaped.inside name member)
    rw [named]
    refine ⟨n, rfl, rfl, ?_⟩
    rw [if_pos kind]
    refine ⟨name, [lists], solid, rfl, by simp [typeArgumentsOf_eq, listed], ?_, ?_⟩
    · intro named
      simp [(bare.mp named).resolve_left unlike]
    · intro other
      have unlike' : name.kind ≠ .typeIdentifier := fun kind => other (bare.mpr (.inr kind))
      simp [unlike']
  · rename_i plain plain' other
    refine ⟨n, rfl, rfl, ?_⟩
    rw [if_neg other]
    refine ⟨rfl, rfl, fun named => ?_, fun _ => rfl⟩
    exact (bare.mp named).elim (fun kind => (plain' kind).elim) fun kind => (plain kind).elim

theorem tells_types (shaped : ∀ entry ∈ entries, ∃ n, entry = [n] ∧ n.Shaped Grammar.shape) :
    List.Forall₂ TellsType entries (entries.flatten.map Heritage.ofType) := by
  induction entries with
  | nil => exact .nil
  | cons entry more ih =>
    obtain ⟨n, rfl, here⟩ := shaped entry List.mem_cons_self
    exact .cons (tells_ofType here) (ih fun e member => shaped e (List.mem_cons_of_mem _ member))

-- The first entry is told, with the first type arguments of the clause, whosever they are.
theorem ofExtends_first (shaped : Node.Shaped Grammar.shape n)
    (clause : Grammar.Clause word Grammar.ValuePiece n.solid) :
    ∃ subject own later h, n.entries = (subject :: own) :: later ∧ Heritage.ofExtends n = some h ∧
      h.range = subject.range ∧ Tells subject ((n.entries.flatMap List.tail).take 1) h := by
  obtain ⟨values, arguments⟩ := Node.value_entries shaped clause
  obtain ⟨entry, later, split⟩ := List.exists_cons_of_ne_nil n.entries_ne_nil
  obtain ⟨subject, _, _, form⟩ := Node.entries_holds clause entry (split ▸ List.mem_cons_self)
  obtain ⟨own, rfl⟩ : ∃ own, entry = subject :: own := by
    rcases form with rfl | ⟨lists, rfl, _⟩
    · exact ⟨[], rfl⟩
    · exact ⟨[lists], rfl⟩
  have value : n.child? .value = some subject := by simp [Node.child?_eq_head?, values, split]
  have bare := isBareName_iff (shaped.inside subject (List.mem_of_find?_eq_some value))
  refine ⟨subject, own, later, _, split, by rw [Heritage.ofExtends, value]; rfl, rfl, rfl, ?_, ?_, ?_⟩
  · rw [typeArgumentsOf_eq, arguments]
  · intro named
    exact if_pos (by simpa using bare.mp named)
  · intro other
    exact if_neg (by simpa using mt bare.mpr other)

end ComponentAtlas.Outline

namespace ComponentAtlas.Source.Node

variable {n : Node}

def clauses (n : Node) : List Node := (n.children.filter (·.kind = .classHeritage)).flatMap solid

def extensions (n : Node) : List (List Node) := (n.clauses.filter (·.kind = .extendsClause)).flatMap entries

def implementations (n : Node) : List (List Node) := (n.clauses.filter (·.kind = .implementsClause)).flatMap entries

def parents (n : Node) : List (List Node) := (n.children.filter (·.kind = .extendsTypeClause)).flatMap entries

def IsClass (n : Node) : Prop :=
  n.kind = .classDeclaration ∨ n.kind = .abstractClassDeclaration ∨ n.kind = .classExpression

theorem clauses_inside (shaped : n.Shaped shape) : ∀ c ∈ n.clauses, c.Shaped shape := by
  intro c member
  obtain ⟨heritage, inside, below⟩ := List.mem_flatMap.mp member
  exact (shaped.inside heritage (List.mem_filter.mp inside).1).inside c (List.mem_filter.mp below).1

theorem clauses_shape (shaped : n.Shaped Grammar.shape) (isClass : n.IsClass) :
    ∃ extension implementation : Option Node, n.clauses = extension.toList ++ implementation.toList ∧
      (∀ clause ∈ extension, clause.kind = .extendsClause) ∧ ∀ clause ∈ implementation, clause.kind = .implementsClause := by
  have few : (n.children.filter (·.kind = .classHeritage)).length ≤ 1 := by
    rcases isClass with kind | kind | kind
    · have here := shaped.here (by simp [kind])
      rw [kind] at here
      exact here.1
    · have here := shaped.here (by simp [kind])
      rw [kind] at here
      exact here.1
    · have here := shaped.here (by simp [kind])
      rwa [kind] at here
  match heritages : n.children.filter (·.kind = .classHeritage) with
  | [] => exact ⟨none, none, by simp [clauses, heritages], by simp, by simp⟩
  | [heritage] =>
    have member : heritage ∈ n.children.filter (·.kind = .classHeritage) := heritages ▸ List.mem_cons_self
    obtain ⟨inside, kind⟩ : heritage ∈ n.children ∧ heritage.kind = .classHeritage := by simpa using member
    have here := (shaped.inside heritage inside).here (by simp [kind])
    rw [kind] at here
    simpa [clauses, heritages, solid, Grammar.shape] using here
  | _ :: _ :: _ => simp [heritages] at few

end ComponentAtlas.Source.Node

namespace ComponentAtlas.Outline
open Source

theorem clausesOf_filter {f : Node → Bool} (n : Node) (skips : ∀ c : Node, c.isComment = true → f c = false) :
    (clausesOf n).filter f = n.clauses.filter f := by
  rw [clausesOf, Node.clauses, List.filter_flatMap, List.filter_flatMap]
  refine List.flatMap_congr fun heritage _ => ?_
  rw [Node.solid, List.filter_filter]
  refine List.filter_congr fun c _ => ?_
  cases comment : c.isComment with
  | false => simp
  | true => simp [skips c comment]

-- How a class tells its heritage: every entry of what it implements, but of what it extends only the first.
structure ClassTold (n : Node) (decl : ClassDeclaration) : Prop where
  order : n.clauses.flatMap Node.entries = n.extensions ++ n.implementations
  interfaces : List.Forall₂ TellsType n.implementations decl.interfaces
  superclass : n.extensions = [] ∧ decl.superclass = none ∨
    ∃ subject own later h, n.extensions = (subject :: own) :: later ∧ decl.superclass = some h ∧
      h.range = subject.range ∧ Tells subject ((n.extensions.flatMap List.tail).take 1) h
  complete : List.Forall₂ TellsValue n.extensions decl.superclass.toList ↔ n.extensions.length ≤ 1

theorem complete_iff {entries : List (List Node)} {superclass : Option Heritage}
    (told : entries = [] ∧ superclass = none ∨
      ∃ subject own later h, entries = (subject :: own) :: later ∧ superclass = some h ∧
        h.range = subject.range ∧ Tells subject ((entries.flatMap List.tail).take 1) h)
    (pieces : ∀ entry ∈ entries, entry.length ≤ 2) :
    List.Forall₂ TellsValue entries superclass.toList ↔ entries.length ≤ 1 := by
  constructor
  · intro all
    rw [all.length_eq]
    exact Option.length_toList_le
  · intro few
    rcases told with ⟨rfl, rfl⟩ | ⟨subject, own, later, h, rfl, rfl, range, tells⟩
    · exact .nil
    · obtain rfl : later = [] := List.eq_nil_of_length_eq_zero (by simpa using few)
      have short : own.length ≤ 1 := by simpa using pieces _ List.mem_cons_self
      rw [List.flatMap_singleton, List.tail_cons, List.take_of_length_le short] at tells
      exact .cons ⟨subject, own, rfl, range, tells⟩ .nil

theorem extends_told (shaped : Node.Shaped Grammar.shape n) (kind : n.kind = .extendsClause) :
    (∃ subject own later h, n.entries = (subject :: own) :: later ∧ Heritage.ofExtends n = some h ∧
      h.range = subject.range ∧ Tells subject ((n.entries.flatMap List.tail).take 1) h) ∧
      ∀ entry ∈ n.entries, entry.length ≤ 2 := by
  have clause : Grammar.shape .extendsClause n.children := kind ▸ shaped.here (by simp [kind])
  exact ⟨ofExtends_first shaped clause, Node.entries_short clause⟩

theorem implements_told (shaped : Node.Shaped Grammar.shape n) (kind : n.kind = .implementsClause) :
    List.Forall₂ TellsType n.entries (n.parts.map Heritage.ofType) := by
  have clause : Grammar.shape .implementsClause n.children := kind ▸ shaped.here (by simp [kind])
  rw [Node.parts_entries clause]
  refine tells_types fun entry member => ?_
  obtain ⟨own, rfl, _⟩ := Node.entries_holds clause entry member
  exact ⟨own, rfl, shaped.inside own (Node.mem_children_of_entry member List.mem_cons_self)⟩

theorem parents_told (shaped : Node.Shaped Grammar.shape n) (kind : n.kind = .extendsTypeClause) :
    List.Forall₂ TellsType n.entries ((n.childrenOf .type).map Heritage.ofType) := by
  have clause : Grammar.shape .extendsTypeClause n.children := kind ▸ shaped.here (by simp [kind])
  rw [Node.typeChildren_entries shaped clause]
  refine tells_types fun entry member => ?_
  obtain ⟨own, rfl, _⟩ := Node.entries_holds clause entry member
  exact ⟨own, rfl, shaped.inside own (Node.mem_children_of_entry member List.mem_cons_self)⟩

theorem classOf_told (shaped : Node.Shaped Grammar.shape n) (isClass : n.IsClass)
    (lowered : Declaration.classOf n doc = some decl) : ClassTold n decl := by
  obtain ⟨name, _, rfl⟩ := Option.map_eq_some_iff.mp lowered
  obtain ⟨extension, implementation, clauses, first, second⟩ := Node.clauses_shape shaped isClass
  have inside := Node.clauses_inside shaped
  rw [clauses] at inside
  have extending : n.clauses.filter (·.kind = .extendsClause) = extension.toList := by
    cases extension <;> cases implementation <;> simp_all
  have implementing : n.clauses.filter (·.kind = .implementsClause) = implementation.toList := by
    cases extension <;> cases implementation <;> simp_all
  have skips (kind : Kind) (other : kind ≠ .comment) (c : Node) (comment : c.isComment = true) :
      decide (c.kind = kind) = false := by
    rw [of_decide_eq_true comment]
    exact decide_eq_false other.symm
  have extended : (n.extensions = [] ∧ extension.bind Heritage.ofExtends = none ∨
      ∃ subject own later h, n.extensions = (subject :: own) :: later ∧ extension.bind Heritage.ofExtends = some h ∧
        h.range = subject.range ∧ Tells subject ((n.extensions.flatMap List.tail).take 1) h) ∧
      ∀ entry ∈ n.extensions, entry.length ≤ 2 := by
    rw [Node.extensions, extending]
    cases extension with
    | none => exact ⟨.inl ⟨rfl, rfl⟩, nofun⟩
    | some clause =>
      obtain ⟨told, short⟩ := extends_told (inside clause (by simp)) (first clause rfl)
      exact ⟨.inr (by simpa using told), by simpa using short⟩
  obtain ⟨superclass, short⟩ := extended
  have told : (((clausesOf n).filter (·.kind = .extendsClause)).getLast?.bind Heritage.ofExtends) =
      extension.bind Heritage.ofExtends := by
    rw [clausesOf_filter n (skips _ (by decide)), extending]
    cases extension <;> rfl
  refine ⟨?_, ?_, ?_, ?_⟩
  · rw [Node.extensions, Node.implementations, extending, implementing, clauses, List.flatMap_append]
  · dsimp only
    rw [clausesOf_filter n (skips _ (by decide)), Node.implementations, implementing]
    cases implementation with
    | none => exact .nil
    | some clause => simpa using implements_told (inside clause (by simp)) (second clause rfl)
  · dsimp only
    rw [told]
    exact superclass
  · dsimp only
    rw [told]
    exact complete_iff superclass short

theorem interfaceOf_told (shaped : Node.Shaped Grammar.shape n) (lowered : Declaration.interfaceOf n doc = some decl) :
    List.Forall₂ TellsType n.parents decl.parents := by
  obtain ⟨name, _, rfl⟩ := Option.map_eq_some_iff.mp lowered
  dsimp only
  rw [Node.parents]
  have each : ∀ c ∈ n.children.filter (·.kind = .extendsTypeClause),
      c.Shaped Grammar.shape ∧ c.kind = .extendsTypeClause := by
    intro c member
    obtain ⟨inside, kind⟩ := List.mem_filter.mp member
    exact ⟨shaped.inside c inside, of_decide_eq_true kind⟩
  generalize n.children.filter (·.kind = .extendsTypeClause) = clauses at each ⊢
  induction clauses with
  | nil => exact .nil
  | cons clause more ih =>
    obtain ⟨here, kind⟩ := each clause List.mem_cons_self
    exact List.rel_append (parents_told here kind) (ih fun c member => each c (List.mem_cons_of_mem clause member))

end ComponentAtlas.Outline

namespace ComponentAtlas.Source.Node

-- The declaration that a node is, or that `declare` puts in front of itself.
inductive Behind : Node → Node → Prop where
  | self (kind : n.kind = .classDeclaration ∨ n.kind = .abstractClassDeclaration ∨ n.kind = .interfaceDeclaration) :
      Behind n n
  | declare (kind : n.kind = .ambientDeclaration) (first : n.parts.head? = some c) (behind : Behind c m) : Behind n m

-- The class or interface that a statement is about.
inductive About : Node → Node → Prop where
  | plain (behind : Behind n m) : About n m
  | exported (kind : n.kind = .exportStatement) (inner : n.child? .declaration = some c) (behind : Behind c m) :
      About n m
  | default (kind : n.kind = .exportStatement) (bare : n.child? .declaration = none)
      (value : n.child? .value = some c) (isClass : c.kind = .classExpression) : About n c

theorem Behind.shaped (behind : Behind n m) (shaped : n.Shaped shape) : m.Shaped shape := by
  induction behind with
  | self _ => exact shaped
  | declare _ first _ ih =>
    rw [parts_solid] at first
    have member := (List.mem_filter.mp (List.mem_of_mem_head? first)).1
    exact ih (shaped.inside _ (List.mem_filter.mp member).1)

theorem About.shaped (about : About n m) (shaped : n.Shaped shape) : m.Shaped shape := by
  cases about with
  | plain behind => exact behind.shaped shaped
  | exported _ inner behind => exact behind.shaped (shaped.inside _ (List.mem_of_find?_eq_some inner))
  | default _ _ value _ => exact shaped.inside _ (List.mem_of_find?_eq_some value)

end ComponentAtlas.Source.Node

namespace ComponentAtlas.Outline
open Source

theorem Behind.ofNode (behind : Node.Behind n m) (doc : Option String) :
    Declaration.ofNode doc n = Declaration.ofPlainNode m doc := by
  induction behind with
  | self kind =>
    refine Declaration.ofNode_plain _ doc fun ambient => ?_
    simp [ambient] at kind
  | declare kind first _ ih => rw [Declaration.ofNode_ambient doc kind, first, Option.bind_some, ih]

-- A declaration that tells the heritage of a node.
def DeclarationTold (n : Node) : Declaration → Prop
  | .classDecl decl => n.IsClass ∧ ClassTold n decl
  | .interfaceDecl decl => n.kind = .interfaceDeclaration ∧ List.Forall₂ TellsType n.parents decl.parents
  | _ => False

-- A class without a name is told as such; every other one with its heritage.
def HeritageTold (n : Node) (form : StatementForm) : Prop :=
  (∃ mode decl, form = .declaration mode decl ∧ DeclarationTold n decl) ∨
    n.kind = .classExpression ∧ n.child? .name = none ∧ form = .anonymousDefaultClass

theorem name_of_titled {n : Node} (titled : ∃ c ∈ n.children, c.role = some .name) : ∃ name, n.child? .name = some name := by
  obtain ⟨c, member, role⟩ := titled
  exact Option.isSome_iff_exists.mp (List.find?_isSome.mpr ⟨c, member, by simpa using role⟩)

theorem ofPlainNode_class (shaped : Node.Shaped Grammar.shape n) (isClass : n.IsClass) (doc : Option String)
    (named : n.child? .name = some name) :
    ∃ decl, Declaration.ofPlainNode n doc = some decl ∧ DeclarationTold n decl := by
  obtain ⟨decl, lowered⟩ : ∃ decl, Declaration.classOf n doc = some decl := by simp [Declaration.classOf, named]
  refine ⟨.classDecl decl, ?_, isClass, classOf_told shaped isClass lowered⟩
  rcases isClass with kind | kind | kind <;> simp [Declaration.ofPlainNode, kind, lowered]

theorem ofPlainNode_told (shaped : Node.Shaped Grammar.shape n) (doc : Option String)
    (kind : n.kind = .classDeclaration ∨ n.kind = .abstractClassDeclaration ∨ n.kind = .interfaceDeclaration) :
    ∃ decl, Declaration.ofPlainNode n doc = some decl ∧ DeclarationTold n decl := by
  rcases kind with kind | kind | kind
  · have here : Grammar.shape .classDeclaration n.children := kind ▸ shaped.here (by simp [kind])
    obtain ⟨name, named⟩ := name_of_titled here.2
    exact ofPlainNode_class shaped (.inl kind) doc named
  · have here : Grammar.shape .abstractClassDeclaration n.children := kind ▸ shaped.here (by simp [kind])
    obtain ⟨name, named⟩ := name_of_titled here.2
    exact ofPlainNode_class shaped (.inr (.inl kind)) doc named
  · have here : Grammar.shape .interfaceDeclaration n.children := kind ▸ shaped.here (by simp [kind])
    obtain ⟨name, named⟩ := name_of_titled here
    obtain ⟨decl, lowered⟩ : ∃ decl, Declaration.interfaceOf n doc = some decl := by
      simp [Declaration.interfaceOf, named]
    exact ⟨.interfaceDecl decl, by simp [Declaration.ofPlainNode, kind, lowered], kind, interfaceOf_told shaped lowered⟩

theorem Behind.kind (behind : Node.Behind n m) :
    m.kind = .classDeclaration ∨ m.kind = .abstractClassDeclaration ∨ m.kind = .interfaceDeclaration := by
  induction behind with
  | self kind => exact kind
  | declare _ _ _ ih => exact ih

theorem ofNode_told (shaped : Node.Shaped Grammar.shape n) (about : Node.About n m) (before : List Node) :
    HeritageTold m (StatementForm.ofNode n before) := by
  cases about with
  | plain behind =>
    obtain ⟨decl, lowered, told⟩ := ofPlainNode_told (behind.shaped shaped) (DocComment.find before) (Behind.kind behind)
    rw [← Behind.ofNode behind] at lowered
    have other : n.kind ≠ .exportStatement ∧ n.kind ≠ .importStatement := by
      cases behind with
      | self kind => rcases kind with kind | kind | kind <;> simp [kind]
      | declare kind _ _ => simp [kind]
    refine .inl ⟨.none, decl, ?_, told⟩
    unfold StatementForm.ofNode
    dsimp only
    split
    · exact absurd ‹_› other.1
    · exact absurd ‹_› other.2
    · rw [lowered]
  | exported kind inner behind =>
    have shaped := shaped.inside _ (List.mem_of_find?_eq_some inner)
    obtain ⟨decl, lowered, told⟩ := ofPlainNode_told (behind.shaped shaped) (DocComment.find before) (Behind.kind behind)
    rw [← Behind.ofNode behind] at lowered
    refine .inl ⟨if n.hasMark "default" then .default else .named, decl, ?_, told⟩
    simp [StatementForm.ofNode, kind, StatementForm.ofExport, inner, lowered]
  | default kind bare value isClass =>
    have shaped := shaped.inside _ (List.mem_of_find?_eq_some value)
    have plain := Declaration.ofNode_plain m (DocComment.find before) (by simp [isClass])
    cases named : m.child? .name with
    | none =>
      refine .inr ⟨isClass, named, ?_⟩
      simp [StatementForm.ofNode, kind, StatementForm.ofExport, bare, value, isClass, plain, Declaration.ofPlainNode,
        Declaration.classOf, named]
    | some name =>
      obtain ⟨decl, lowered, told⟩ := ofPlainNode_class shaped (.inr (.inr isClass)) (DocComment.find before) named
      refine .inl ⟨.default, decl, ?_, told⟩
      simp [StatementForm.ofNode, kind, StatementForm.ofExport, bare, value, isClass, plain, lowered]

theorem statementsOf_nodes (before nodes : List Node) :
    List.Forall₂ (fun n s => s.range = n.range ∧ ∃ earlier, s.form = StatementForm.ofNode n earlier)
      (nodes.filter (!·.isComment)) (statementsOf before nodes) := by
  induction nodes generalizing before with
  | nil => exact .nil
  | cons n rest ih =>
    rw [statementsOf]
    cases comment : n.isComment with
    | true => simpa [comment] using ih (n :: before)
    | false => simpa [comment] using ih (n :: before)

-- Every class and interface at the top of a text is told with its heritage. All entries reach the outline, each with
-- its own type arguments, unless an `extends` clause of a class has several.
theorem outline_heritage (read : outline path text = .ok file) :
    ∃ tree, parseTree (dialectOf path) text = .ok tree ∧
      List.Forall₂ (fun n s => s.range = n.range ∧ ∀ m, Node.About n m → HeritageTold m s.form)
        tree.solid file.statements := by
  unfold outline at read
  cases parsed : parseTree (dialectOf path) text with
  | error place => simp [parsed] at read
  | ok tree =>
    cases (outline_of_parsed parsed).symm.trans read
    have shaped := parseTree_shaped parsed
    have inside : ∀ n ∈ tree.solid, n.Shaped Grammar.shape := fun n member =>
      shaped.inside n (List.mem_filter.mp member).1
    refine ⟨tree, rfl, ((List.forall₂_and_left _ _).mpr ⟨inside, statementsOf_nodes [] tree.children⟩).imp ?_⟩
    rintro n s ⟨here, range, earlier, form⟩
    exact ⟨range, fun m about => form ▸ ofNode_told here about earlier⟩

def toldHeritage (form : StatementForm) : List (String × List String) :=
  let told : List Heritage :=
    match form with
    | .declaration _ (.classDecl decl) => decl.superclass.toList ++ decl.interfaces
    | .declaration _ (.interfaceDecl decl) => decl.parents
    | _ => []
  told.map fun h => (h.text, h.arguments.map (·.text))

theorem ok_of_told {result : Except ε α} {f : α → β} (told : result.toOption.map f = some b) :
    ∃ a, result = .ok a ∧ f a = b := by
  cases result with
  | error failure => simp [Except.toOption] at told
  | ok a => exact ⟨a, rfl, Option.some.inj told⟩

def heirsText : String :=
  "export class A extends B<T> implements /**/ C, n.D<U> \x7b\x7d declare interface E extends F, G<H> \x7b\x7d"

theorem outline_heritage_heirs : ∃ file tree, outline ⟨"a.ts"⟩ heirsText = .ok file ∧
    parseTree .plain heirsText = .ok tree ∧
    file.statements.map (toldHeritage ·.form) =
      [[("B", ["T"]), ("C", []), ("n.D", ["U"])], [("F", []), ("G", ["H"])]] ∧
    List.Forall₂ (fun n s => s.range = n.range ∧ ∀ m, Node.About n m → HeritageTold m s.form)
      tree.solid file.statements := by
  have told : (outline ⟨"a.ts"⟩ heirsText).toOption.map (fun file => file.statements.map (toldHeritage ·.form)) =
      some [[("B", ["T"]), ("C", []), ("n.D", ["U"])], [("F", []), ("G", ["H"])]] := by
    decide +kernel
  obtain ⟨file, read, told⟩ := ok_of_told told
  obtain ⟨tree, parsed, kept⟩ := outline_heritage read
  exact ⟨file, tree, read, parsed, told, kept⟩

-- Of several entries of an `extends` clause the first is told with the type arguments of another, and the others not at
-- all.
theorem extends_entries_lost : ∃ file tree n, outline ⟨"a.ts"⟩ "class A extends B, C<D> \x7b\x7d" = .ok file ∧
    parseTree .plain "class A extends B, C<D> \x7b\x7d" = .ok tree ∧ tree.solid = [n] ∧
    n.kind = .classDeclaration ∧ n.extensions.map (·.map Node.text) = [["B"], ["C", "<D>"]] ∧
    file.statements.map (toldHeritage ·.form) = [[("B", ["D"])]] := by
  have told : (parseTree .plain "class A extends B, C<D> \x7b\x7d").toOption.map (fun tree =>
      (tree.solid.map fun n => (n.kind, n.extensions.map (·.map Node.text)),
        (statementsOf [] tree.children).map (toldHeritage ·.form))) =
      some ([(.classDeclaration, [["B"], ["C", "<D>"]])], [[("B", ["D"])]]) := by
    decide +kernel
  obtain ⟨tree, parsed, told⟩ := ok_of_told told
  obtain ⟨nodes, statements⟩ := Prod.mk.inj told
  obtain ⟨n, single, here⟩ := List.map_eq_singleton_iff.mp nodes
  obtain ⟨kind, entries⟩ := Prod.mk.inj here
  have plain : dialectOf ⟨"a.ts"⟩ = .plain := by decide +kernel
  exact ⟨_, tree, n, outline_of_parsed (plain ▸ parsed), parsed, single, kind, entries, statements⟩

end ComponentAtlas.Outline
