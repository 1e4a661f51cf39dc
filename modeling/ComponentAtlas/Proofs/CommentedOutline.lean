import ComponentAtlas.Outline.OfTree
import ComponentAtlas.Proofs.CommentedTrees

namespace ComponentAtlas.Outline
open Source

section

-- What is asked of two texts that are kept as they are written, and of two ranges.
variable (T : String → String → Prop) (G : Range → Range → Prop)

structure TypeText.Alike (t t' : TypeText) : Prop where
  kind : t'.kind = t.kind
  text : T t.text t'.text
  range : G t.range t'.range

structure TypeParameter.Alike (p p' : TypeParameter) : Prop where
  name : p'.name = p.name
  constraint : Option.Rel (TypeText.Alike T G) p.constraint p'.constraint
  default : Option.Rel (TypeText.Alike T G) p.default p'.default

structure Heritage.Alike (h h' : Heritage) : Prop where
  form : h'.form = h.form
  text : T h.text h'.text
  arguments : List.Forall₂ (TypeText.Alike T G) h.arguments h'.arguments
  range : G h.range h'.range

structure ClassDeclaration.Alike (d d' : ClassDeclaration) : Prop where
  name : d'.name = d.name
  isAbstract : d'.isAbstract = d.isAbstract
  parameters : List.Forall₂ (TypeParameter.Alike T G) d.parameters d'.parameters
  superclass : Option.Rel (Heritage.Alike T G) d.superclass d'.superclass
  interfaces : List.Forall₂ (Heritage.Alike T G) d.interfaces d'.interfaces
  doc : d'.doc = d.doc
  range : G d.range d'.range

structure InterfaceDeclaration.Alike (d d' : InterfaceDeclaration) : Prop where
  name : d'.name = d.name
  parameters : List.Forall₂ (TypeParameter.Alike T G) d.parameters d'.parameters
  parents : List.Forall₂ (Heritage.Alike T G) d.parents d'.parents
  doc : d'.doc = d.doc
  range : G d.range d'.range

structure AliasDeclaration.Alike (d d' : AliasDeclaration) : Prop where
  name : d'.name = d.name
  parameters : List.Forall₂ (TypeParameter.Alike T G) d.parameters d'.parameters
  value : TypeText.Alike T G d.value d'.value
  doc : d'.doc = d.doc
  range : G d.range d'.range

-- The name of a member may be computed, and its value is any expression: both are kept as text.
structure EnumMember.Alike (m m' : EnumMember) : Prop where
  name : ∃ written written', T written written' ∧ m.name = unquote written ∧ m'.name = unquote written'
  value : Option.Rel T m.value m'.value

structure EnumDeclaration.Alike (d d' : EnumDeclaration) : Prop where
  name : d'.name = d.name
  isConst : d'.isConst = d.isConst
  members : List.Forall₂ (EnumMember.Alike T) d.members d'.members
  doc : d'.doc = d.doc
  range : G d.range d'.range

inductive Declaration.Alike : Declaration → Declaration → Prop where
  | classDecl (alike : d.Alike T G d') : Declaration.Alike (.classDecl d) (.classDecl d')
  | interfaceDecl (alike : d.Alike T G d') : Declaration.Alike (.interfaceDecl d) (.interfaceDecl d')
  | aliasDecl (alike : d.Alike T G d') : Declaration.Alike (.aliasDecl d) (.aliasDecl d')
  | enumDecl (alike : d.Alike T G d') : Declaration.Alike (.enumDecl d) (.enumDecl d')

structure ExportSpecifier.Alike (s s' : ExportSpecifier) : Prop where
  name : s'.name = s.name
  otherName : s'.otherName = s.otherName
  range : G s.range s'.range

inductive StatementForm.Alike : StatementForm → StatementForm → Prop where
  | declaration (mode : ExportMode) (alike : Declaration.Alike T G decl decl') :
      StatementForm.Alike (.declaration mode decl) (.declaration mode decl')
  | exportNamed (source : Option String) (alike : List.Forall₂ (ExportSpecifier.Alike G) specifiers specifiers') :
      StatementForm.Alike (.exportNamed specifiers source) (.exportNamed specifiers' source)
  | same (form : StatementForm) : StatementForm.Alike form form

structure Statement.Alike (s s' : Statement) : Prop where
  form : StatementForm.Alike T G s.form s'.form
  range : G s.range s'.range

end

variable {T : String → String → Prop} {G : Range → Range → Prop} {i : Insertion}

theorem head?_rel {R : α → β → Prop} (all : List.Forall₂ R as bs) : Option.Rel R as.head? bs.head? := by
  cases all with
  | nil => exact .none
  | cons head _ => exact .some head

theorem getLast?_rel {R : α → β → Prop} (all : List.Forall₂ R as bs) : Option.Rel R as.getLast? bs.getLast? := by
  rw [List.getLast?_eq_head?_reverse, List.getLast?_eq_head?_reverse]
  exact head?_rel (List.forall₂_reverse_iff.mpr all)

theorem map_rel {R : α → β → Prop} {S : γ → δ → Prop} {f : α → γ} {g : β → δ} (rel : Option.Rel R x y)
    (each : ∀ a b, R a b → S (f a) (g b)) : Option.Rel S (x.map f) (y.map g) := by
  cases rel with
  | none => exact .none
  | some alike => exact .some (each _ _ alike)

theorem bind_rel {R : α → β → Prop} {S : γ → δ → Prop} {f : α → Option γ} {g : β → Option δ} (rel : Option.Rel R x y)
    (each : ∀ a b, R a b → Option.Rel S (f a) (g b)) : Option.Rel S (x.bind f) (y.bind g) := by
  cases rel with
  | none => exact .none
  | some alike => exact each _ _ alike

-- The places of which the outline takes no notice. Between statements a comment may be a doc comment.
def unnoticed : Kind → List Node → List Node → Bool
  | .program, _, _ => false
  | .constraint, front, _ | .defaultType, front, _ | .namespaceExport, front, _ => front.any (·.kind.isNamed)
  | .importStatement, front, behind => front.length ≠ 1 || !behind.head?.any (·.kind = .mark "type")
  | _, _, _ => true

-- The node before, of a text that `T` relates and a range that `G` does, and the node after.
inductive Counterpart (T : String → String → Prop) (G : Range → Range → Prop) (i : Insertion) : Node → Node → Prop where
  | intro (kind : n'.kind = n.kind) (role : n'.role = n.role) (text : T n.text n'.text) (range : G n.range n'.range)
      (token : n.Leaf → n'.text = n.text)
      (children : Interspersed (Counterpart T G i) i.node unnoticed n.kind [] n.children n'.children) :
      Counterpart T G i n n'

structure Twin (T : String → String → Prop) (G : Range → Range → Prop) (i : Insertion) (n n' : Node) : Prop where
  counterpart : Counterpart T G i n n'
  shaped : n'.Shaped Grammar.shape
  parts : n'.Shaped fun kind => (Grammar.demand kind).Met

namespace Twin

variable {n n' : Node}

theorem kind (twin : Twin T G i n n') : n'.kind = n.kind := by
  obtain ⟨kind, _, _, _, _, _⟩ := twin.counterpart
  exact kind

theorem role (twin : Twin T G i n n') : n'.role = n.role := by
  obtain ⟨_, role, _, _, _, _⟩ := twin.counterpart
  exact role

theorem text (twin : Twin T G i n n') : T n.text n'.text := by
  obtain ⟨_, _, text, _, _, _⟩ := twin.counterpart
  exact text

theorem range (twin : Twin T G i n n') : G n.range n'.range := by
  obtain ⟨_, _, _, range, _, _⟩ := twin.counterpart
  exact range

theorem leaf (twin : Twin T G i n n') (bare : n'.Leaf) : n'.text = n.text := by
  obtain ⟨_, _, _, _, token, children⟩ := twin.counterpart
  have none : n'.children = [] := bare
  rw [none] at children
  exact token children.nil_left

theorem children (twin : Twin T G i n n') :
    Interspersed (Twin T G i) i.node unnoticed n.kind [] n.children n'.children := by
  obtain ⟨_, _, _, _, _, children⟩ := twin.counterpart
  exact children.imp_mem fun a _ b member alike => ⟨alike, twin.shaped.inside b member, twin.parts.inside b member⟩

theorem filter {f : Node → Bool} (twin : Twin T G i n n')
    (agrees : ∀ a b : Node, b.kind = a.kind → b.role = a.role → f b = f a) (skips : f i.node = false) :
    List.Forall₂ (Twin T G i) (n.children.filter f) (n'.children.filter f) :=
  twin.children.filter (fun a b twin => agrees a b twin.kind twin.role) skips

theorem childrenOf (twin : Twin T G i n n') (part : Role) :
    List.Forall₂ (Twin T G i) (n.childrenOf part) (n'.childrenOf part) :=
  twin.filter (fun a b _ role => by rw [role]) (by simp [i.idle_node.role])

theorem ofKind (twin : Twin T G i n n') (kind : Kind) (named : kind ≠ .comment) :
    List.Forall₂ (Twin T G i) (n.children.filter (·.kind = kind)) (n'.children.filter (·.kind = kind)) :=
  twin.filter (fun a b kind _ => by rw [kind]) (by simp [i.idle_node.comment, named.symm])

theorem solidParts (twin : Twin T G i n n') : List.Forall₂ (Twin T G i) n.parts n'.parts := by
  rw [Node.parts, Node.parts, Node.namedChildren, Node.namedChildren, List.filter_filter, List.filter_filter]
  refine twin.filter (fun a b kind _ => ?_) ?_
  · rw [Node.isComment, Node.isComment, kind]
  · simp [Node.isComment, i.idle_node.comment]

theorem child? (twin : Twin T G i n n') (part : Role) :
    Option.Rel (Twin T G i) (n.child? part) (n'.child? part) := by
  rw [Node.child?, Node.child?, ← List.head?_filter, ← List.head?_filter]
  exact head?_rel (twin.childrenOf part)

theorem hasMark (twin : Twin T G i n n') (text : String) : n'.hasMark text = n.hasMark text := by
  have found (m : Node) : m.hasMark text = true ↔ 0 < (m.children.filter (·.kind = .mark text)).length := by
    simp [Node.hasMark, List.length_pos_iff_exists_mem]
  rw [Bool.eq_iff_iff, found, found, (twin.ofKind (.mark text) (by simp)).length_eq]

-- What the outline takes as the first named child is guarded.
theorem firstNamed (twin : Twin T G i n n')
    (guarded : n.kind = .constraint ∨ n.kind = .defaultType ∨ n.kind = .namespaceExport) :
    Option.Rel (Twin T G i) n.namedChildren.head? n'.namedChildren.head? := by
  refine twin.children.first_named (fun a b twin => twin.kind) (fun front as fits => ?_) nofun
  rcases guarded with kind | kind | kind
  · simpa [kind, unnoticed] using fits
  · simpa [kind, unnoticed] using fits
  · simpa [kind, unnoticed] using fits

theorem unnoticed_import (fits : unnoticed .importStatement ([] ++ [a]) as = true) :
    as[0]?.any (·.kind = .mark "type") = false := by
  simpa [unnoticed, List.head?_eq_getElem?] using fits

-- The word behind `import` stays there.
theorem secondMark (twin : Twin T G i n n') (kind : n.kind = .importStatement) :
    (n'.children[1]?.any (·.kind = .mark "type")) = (n.children[1]?.any (·.kind = .mark "type")) := by
  have all := twin.children
  rw [kind] at all
  generalize n.children = as, n'.children = bs at all ⊢
  cases all with
  | nil => rfl
  | both _ rest =>
    cases rest with
    | nil => rfl
    | both second _ => simp [second.kind]
    | comment _ _ fits _ => simp [i.idle_node.comment, unnoticed_import fits]
  | comment behind _ _ _ => exact absurd rfl behind

theorem child_settled (twin : Twin T G i n n') (asked : Grammar.demand n.kind = .roles wish)
    (found : n'.child? part = some c) : (wish part).Met c := by
  rw [← twin.kind] at asked
  have named : n'.kind ≠ .comment := by
    intro comment
    simp [comment, Grammar.demand] at asked
  have met := twin.parts.here named
  rw [asked] at met
  have first : n'.children.find? (·.role = some part) = some c := found
  exact met c (List.mem_of_find?_eq_some first) part (by simpa using List.find?_some first)

-- Names are tokens, which have no comment in them.
theorem name (twin : Twin T G i n n') (asked : Grammar.demand n.kind = .roles wish) (token : wish part = .token) :
    Option.Rel (fun a b => b.text = a.text) (n.child? part) (n'.child? part) := by
  have rel := twin.child? part
  have settled (c : Node) (found : n'.child? part = some c) : c.Leaf := by
    have met := twin.child_settled asked found
    rwa [token] at met
  generalize n.child? part = x, n'.child? part = y at rel settled ⊢
  cases rel with
  | none => exact .none
  | some inner => exact .some (inner.leaf (settled _ rfl))

theorem bareName (twin : Twin T G i n n') (kind : n.kind = .identifier ∨ n.kind = .typeIdentifier) :
    n'.text = n.text := by
  refine twin.leaf ?_
  rw [← twin.kind] at kind
  rcases kind with kind | kind
  · have here : Grammar.shape .identifier n'.children := kind ▸ twin.shaped.here (by simp [kind])
    exact here
  · have here : Grammar.shape .typeIdentifier n'.children := kind ▸ twin.shaped.here (by simp [kind])
    exact here

theorem typeText (twin : Twin T G i n n') : (TypeText.ofNode n).Alike T G (TypeText.ofNode n') :=
  ⟨by rw [TypeText.ofNode, TypeText.ofNode, twin.kind], twin.text, twin.range⟩

theorem typeTexts (twins : List.Forall₂ (Twin T G i) as bs) :
    List.Forall₂ (TypeText.Alike T G) (as.map TypeText.ofNode) (bs.map TypeText.ofNode) := by
  rw [List.forall₂_map_left_iff, List.forall₂_map_right_iff]
  exact twins.imp fun _ _ twin => twin.typeText

theorem typeArguments (twin : Twin T G i n n') :
    List.Forall₂ (TypeText.Alike T G) (typeArgumentsOf n) (typeArgumentsOf n') := by
  have rel := twin.child? .typeArguments
  unfold typeArgumentsOf
  generalize n.child? .typeArguments = x, n'.child? .typeArguments = y at rel ⊢
  cases rel with
  | none => exact .nil
  | some inner => exact typeTexts inner.solidParts

theorem wrapped (twin : Twin T G i n n') (asked : Grammar.demand n.kind = .roles wish)
    (wanted : wish part = .kind wrapper) (guarded : wrapper = .constraint ∨ wrapper = .defaultType) :
    Option.Rel (TypeText.Alike T G) (((n.child? part).bind (·.namedChildren.head?)).map TypeText.ofNode)
      (((n'.child? part).bind (·.namedChildren.head?)).map TypeText.ofNode) := by
  have rel := twin.child? part
  have settled (c : Node) (found : n'.child? part = some c) : c.kind = wrapper := by
    have met := twin.child_settled asked found
    rwa [wanted] at met
  generalize n.child? part = x, n'.child? part = y at rel settled ⊢
  cases rel with
  | none => exact .none
  | some inner =>
    have first := inner.firstNamed (by rw [← inner.kind, settled _ rfl]; exact guarded.imp_right .inl)
    exact map_rel first fun a b twin => twin.typeText

theorem typeParameter (twin : Twin T G i n n') :
    Option.Rel (TypeParameter.Alike T G) (TypeParameter.ofNode n) (TypeParameter.ofNode n') := by
  unfold TypeParameter.ofNode
  rw [twin.kind]
  split
  · rename_i kind
    have asked : Grammar.demand n.kind = .roles Grammar.parameterWish := by rw [kind]; rfl
    have title : Option.Rel (fun a b => b.text = a.text) (n.child? .name) (n'.child? .name) := twin.name asked rfl
    refine map_rel title fun a b same => ⟨same, ?_, ?_⟩
    · exact twin.wrapped asked rfl (.inl rfl)
    · exact twin.wrapped asked rfl (.inr rfl)
  · exact .none

theorem filterMap_parts {f : Node → Option α} (n : Node) (skips : ∀ c : Node, c.isComment = true → f c = none) :
    n.namedChildren.filterMap f = n.parts.filterMap f := by
  rw [Node.parts, List.filterMap_filter]
  refine List.filterMap_congr fun c _ => ?_
  cases comment : c.isComment with
  | false => simp
  | true => simp [skips c comment]

theorem forall₂_filterMap {R : α → β → Prop} {S : γ → δ → Prop} {f : α → Option γ} {g : β → Option δ}
    (all : List.Forall₂ R as bs) (each : ∀ a b, R a b → Option.Rel S (f a) (g b)) :
    List.Forall₂ S (as.filterMap f) (bs.filterMap g) :=
  List.rel_filterMap (fun a b alike => each a b alike) all

theorem typeParameters (twin : Twin T G i n n') :
    List.Forall₂ (TypeParameter.Alike T G) (typeParametersOf n) (typeParametersOf n') := by
  have rel := twin.child? .typeParameters
  have skips (c : Node) (isComment : c.isComment = true) : TypeParameter.ofNode c = none := by
    simp [TypeParameter.ofNode, show c.kind = .comment from of_decide_eq_true isComment]
  unfold typeParametersOf
  generalize n.child? .typeParameters = x, n'.child? .typeParameters = y at rel ⊢
  cases rel with
  | none => exact .nil
  | some inner =>
    dsimp only
    rw [filterMap_parts _ skips, filterMap_parts _ skips]
    exact forall₂_filterMap inner.solidParts fun a b twin => twin.typeParameter

theorem ofExtends (twin : Twin T G i n n') :
    Option.Rel (Heritage.Alike T G) (Heritage.ofExtends n) (Heritage.ofExtends n') := by
  refine map_rel (twin.child? .value) fun a b value => ⟨?_, value.text, twin.typeArguments, value.range⟩
  rw [value.kind]
  split
  · rename_i named
    rw [value.bareName (by simpa using named)]
  · rfl

theorem ofType (twin : Twin T G i n n') :
    (Heritage.ofType n).Alike T G (Heritage.ofType n') := by
  unfold Heritage.ofType
  rw [twin.kind]
  split
  · rename_i kind
    exact ⟨by rw [twin.bareName (.inr kind)], twin.text, .nil, twin.range⟩
  · rename_i kind
    exact ⟨by rw [twin.bareName (.inl kind)], twin.text, .nil, twin.range⟩
  · have rel := twin.child? .name
    generalize n.child? .name = x, n'.child? .name = y at rel ⊢
    cases rel with
    | none => exact ⟨rfl, twin.text, twin.typeArguments, twin.range⟩
    | some inner =>
      refine ⟨?_, inner.text, twin.typeArguments, twin.range⟩
      dsimp only
      rw [inner.kind]
      split
      · rename_i named
        rw [inner.bareName (.inr named)]
      · rfl
  · exact ⟨rfl, twin.text, .nil, twin.range⟩

theorem ofTypes (twins : List.Forall₂ (Twin T G i) as bs) :
    List.Forall₂ (Heritage.Alike T G) (as.map Heritage.ofType) (bs.map Heritage.ofType) := by
  rw [List.forall₂_map_left_iff, List.forall₂_map_right_iff]
  exact twins.imp fun _ _ twin => twin.ofType

theorem clauses (twin : Twin T G i n n') (kind : Kind) (named : kind ≠ .comment) :
    List.Forall₂ (Twin T G i) ((clausesOf n).filter (·.kind = kind)) ((clausesOf n').filter (·.kind = kind)) := by
  rw [clausesOf, clausesOf, List.filter_flatMap, List.filter_flatMap]
  exact List.rel_flatMap (twin.ofKind .classHeritage (by decide)) fun _ _ heritage => heritage.ofKind kind named

theorem classOf (twin : Twin T G i n n') (doc : Option String)
    (asked : Grammar.demand n.kind = .roles Grammar.nameWish) :
    Option.Rel (ClassDeclaration.Alike T G) (Declaration.classOf n doc) (Declaration.classOf n' doc) := by
  refine map_rel (twin.name asked rfl) fun a b same => ⟨same, ?_, twin.typeParameters, ?_, ?_, rfl, twin.range⟩
  · dsimp only
    rw [twin.kind, twin.hasMark]
  · exact bind_rel (getLast?_rel (twin.clauses .extendsClause (by decide))) fun _ _ clause => clause.ofExtends
  · exact List.rel_flatMap (twin.clauses .implementsClause (by decide)) fun _ _ clause => ofTypes clause.solidParts

theorem interfaceOf (twin : Twin T G i n n') (doc : Option String)
    (asked : Grammar.demand n.kind = .roles Grammar.nameWish) :
    Option.Rel (InterfaceDeclaration.Alike T G) (Declaration.interfaceOf n doc) (Declaration.interfaceOf n' doc) := by
  refine map_rel (twin.name asked rfl) fun a b same => ⟨same, twin.typeParameters, ?_, rfl, twin.range⟩
  exact List.rel_flatMap (twin.ofKind .extendsTypeClause (by decide)) fun _ _ clause => ofTypes (clause.childrenOf .type)

theorem aliasOf (twin : Twin T G i n n') (doc : Option String)
    (asked : Grammar.demand n.kind = .roles Grammar.nameWish) :
    Option.Rel (AliasDeclaration.Alike T G) (Declaration.aliasOf n doc) (Declaration.aliasOf n' doc) := by
  have title : Option.Rel (fun a b => b.text = a.text) (n.child? .name) (n'.child? .name) := twin.name asked rfl
  have value := twin.child? .value
  unfold Declaration.aliasOf
  generalize n.child? .name = x, n'.child? .name = x', n.child? .value = y, n'.child? .value = y' at title value ⊢
  cases title with
  | none => exact .none
  | some same =>
    cases value with
    | none => exact .none
    | some inner => exact .some ⟨same, twin.typeParameters, inner.typeText, rfl, twin.range⟩

theorem memberOf (twin : Twin T G i n n') :
    Option.Rel (EnumMember.Alike T) (Declaration.memberOf n) (Declaration.memberOf n') := by
  unfold Declaration.memberOf
  rw [twin.kind]
  split
  · refine map_rel (twin.child? .name) fun a b title => ⟨⟨_, _, title.text, rfl, rfl⟩, ?_⟩
    exact map_rel (twin.child? .value) fun _ _ value => value.text
  · exact .some ⟨⟨_, _, twin.text, rfl, rfl⟩, .none⟩

theorem enumOf (twin : Twin T G i n n') (doc : Option String)
    (asked : Grammar.demand n.kind = .roles Grammar.nameWish) :
    Option.Rel (EnumDeclaration.Alike T G) (Declaration.enumOf n doc) (Declaration.enumOf n' doc) := by
  refine map_rel (twin.name asked rfl) fun a b same => ⟨same, twin.hasMark "const", ?_, rfl, twin.range⟩
  have body := twin.child? .body
  dsimp only
  generalize n.child? .body = x, n'.child? .body = y at body ⊢
  cases body with
  | none => exact .nil
  | some inner => exact forall₂_filterMap inner.solidParts fun _ _ twin => twin.memberOf

theorem ofPlainNode (twin : Twin T G i n n') (doc : Option String) :
    Option.Rel (Declaration.Alike T G) (Declaration.ofPlainNode n doc) (Declaration.ofPlainNode n' doc) := by
  unfold Declaration.ofPlainNode
  rw [twin.kind]
  split
  · rename_i kind
    exact map_rel (twin.classOf doc (by rw [kind]; rfl)) fun _ _ alike => .classDecl alike
  · rename_i kind
    exact map_rel (twin.classOf doc (by rw [kind]; rfl)) fun _ _ alike => .classDecl alike
  · rename_i kind
    exact map_rel (twin.classOf doc (by rw [kind]; rfl)) fun _ _ alike => .classDecl alike
  · rename_i kind
    exact map_rel (twin.interfaceOf doc (by rw [kind]; rfl)) fun _ _ alike => .interfaceDecl alike
  · rename_i kind
    exact map_rel (twin.aliasOf doc (by rw [kind]; rfl)) fun _ _ alike => .aliasDecl alike
  · rename_i kind
    exact map_rel (twin.enumOf doc (by rw [kind]; rfl)) fun _ _ alike => .enumDecl alike
  · exact .none

-- By induction on the tree, `declare` being the only step.
theorem declaration (twin : Twin T G i n n') (doc : Option String) :
    Option.Rel (Declaration.Alike T G) (Declaration.ofNode doc n) (Declaration.ofNode doc n') := by
  have shaped := twin.shaped
  induction shaped generalizing n with
  | comment idle =>
    rw [Declaration.ofNode_plain _ doc (by simp [← twin.kind, idle.comment]),
      Declaration.ofNode_plain _ doc (by simp [idle.comment])]
    exact twin.ofPlainNode doc
  | @part n' _ _ _ ih =>
    by_cases ambient : n.kind = .ambientDeclaration
    · rw [Declaration.ofNode_ambient doc ambient, Declaration.ofNode_ambient doc (twin.kind.trans ambient)]
      have first := head?_rel twin.solidParts
      have inside (c : Node) (found : n'.parts.head? = some c) : c ∈ n'.children := by
        rw [Node.parts, Node.namedChildren] at found
        exact (List.mem_filter.mp (List.mem_filter.mp (List.mem_of_mem_head? found)).1).1
      generalize n.parts.head? = x, n'.parts.head? = y at first inside ⊢
      cases first with
      | none => exact .none
      | some inner => exact ih _ (inside _ rfl) inner
    · rw [Declaration.ofNode_plain _ doc ambient, Declaration.ofNode_plain _ doc (by rwa [twin.kind])]
      exact twin.ofPlainNode doc

theorem named_map (twin : Twin T G i n n') (asked : Grammar.demand n.kind = .roles wish) (token : wish part = .token)
    (f : String → α) : (n'.child? part).map (fun c => f c.text) = (n.child? part).map fun c => f c.text := by
  have same := twin.name asked token
  generalize n.child? part = x, n'.child? part = y at same ⊢
  cases same with
  | none => rfl
  | some same => simp [same]

theorem exportSpecifiers (twin : Twin T G i n n') :
    List.Forall₂ (ExportSpecifier.Alike G) (StatementForm.specifiersOf n) (StatementForm.specifiersOf n') := by
  unfold StatementForm.specifiersOf
  rw [filterMap_parts, filterMap_parts]
  · refine forall₂_filterMap twin.solidParts fun a b twin => ?_
    rw [twin.kind]
    split
    · rename_i kind
      have asked : Grammar.demand a.kind = .roles Grammar.nameWish := by rw [kind]; rfl
      refine map_rel (twin.name asked rfl) fun c c' same => ⟨?_, twin.named_map asked rfl unquote, twin.range⟩
      dsimp only
      rw [same]
    · exact .none
  all_goals
    intro c isComment
    simp [show c.kind = .comment from of_decide_eq_true isComment]

theorem namespaceName (twin : Twin T G i n n') (kind : n.kind = .namespaceExport) :
    n'.namedChildren.head?.map (unquote ·.text) = n.namedChildren.head?.map (unquote ·.text) := by
  have first := twin.firstNamed (.inr (.inr kind))
  have leaves (c : Node) (found : n'.namedChildren.head? = some c) : c.Leaf := by
    rw [← twin.kind] at kind
    have met := twin.parts.here (by simp [kind])
    rw [kind] at met
    exact met c (List.mem_filter.mp (List.mem_of_mem_head? found)).1
  generalize n.namedChildren.head? = x, n'.namedChildren.head? = y at first leaves ⊢
  cases first with
  | none => rfl
  | some inner => simp [inner.leaf (leaves _ rfl)]

theorem exportParts {parent : Kind} {front as bs : List Node} (source : Option String)
    (all : Interspersed (Twin T G i) i.node unnoticed parent front as bs) :
    Option.Rel (StatementForm.Alike T G) (StatementForm.ofExportParts source as)
      (StatementForm.ofExportParts source bs) := by
  induction all with
  | nil => exact .none
  | comment _ _ _ _ ih => simpa [StatementForm.ofExportParts, i.idle_node.comment] using ih
  | both head _ ih =>
    unfold StatementForm.ofExportParts
    rw [head.kind]
    split
    · exact .some (.exportNamed _ head.exportSpecifiers)
    · rename_i kind
      rw [head.namespaceName kind]
      exact .some (.same _)
    · exact .some (.same _)
    · exact .some (.same _)
    · exact ih

theorem declared_alike {form : StatementForm} {x y : Option Declaration} (mode : ExportMode) :
    Option.Rel (Declaration.Alike T G) x y →
      StatementForm.Alike T G
        (match x with
          | some decl => .declaration mode decl
          | none => form)
        (match y with
          | some decl => .declaration mode decl
          | none => form) := by
  intro lowered
  cases lowered with
  | none => exact .same form
  | some alike => exact .declaration mode alike

theorem ofExport (twin : Twin T G i n n') (kind : n.kind = .exportStatement) (doc : Option String) :
    StatementForm.Alike T G (StatementForm.ofExport n doc) (StatementForm.ofExport n' doc) := by
  have inner := twin.child? .declaration
  have value := twin.child? .value
  have asked : Grammar.demand n.kind = .roles Grammar.nameWish := by rw [kind]; rfl
  have source : (n'.child? .source).map (unquote ·.text) = (n.child? .source).map (unquote ·.text) :=
    twin.named_map asked rfl unquote
  have parts := exportParts ((n.child? .source).map (unquote ·.text)) twin.children
  unfold StatementForm.ofExport
  rw [source, twin.hasMark, twin.kind]
  generalize n.child? .declaration = x, n'.child? .declaration = x' at inner ⊢
  generalize n.child? .value = y, n'.child? .value = y' at value ⊢
  cases inner with
  | some inner =>
    dsimp only
    rw [inner.kind]
    exact declared_alike _ (inner.declaration doc)
  | none =>
    cases value with
    | some inner =>
      dsimp only
      rw [inner.kind]
      split
      · exact declared_alike _ (inner.declaration doc)
      · exact .same _
    | none =>
      dsimp only
      generalize StatementForm.ofExportParts _ n.children = z, StatementForm.ofExportParts _ n'.children = z' at parts ⊢
      cases parts with
      | none => exact .same _
      | some alike => exact alike

theorem importSpecifier (twin : Twin T G i n n') :
    Option.Rel Eq (StatementForm.importSpecifierOf n) (StatementForm.importSpecifierOf n') := by
  unfold StatementForm.importSpecifierOf
  rw [twin.kind]
  split
  · rename_i kind
    have asked : Grammar.demand n.kind = .roles Grammar.nameWish := by rw [kind]; rfl
    have other : (n'.child? .otherName).map (·.text) = (n.child? .otherName).map (·.text) :=
      twin.named_map asked rfl id
    have title : Option.Rel (fun c c' => c'.text = c.text) (n.child? .name) (n'.child? .name) := twin.name asked rfl
    exact map_rel title fun c c' same => by rw [same, other]
  · exact .none

theorem importSpecifiers (twin : Twin T G i n n') :
    n'.namedChildren.filterMap StatementForm.importSpecifierOf =
      n.namedChildren.filterMap StatementForm.importSpecifierOf := by
  have skips (c : Node) (isComment : c.isComment = true) : StatementForm.importSpecifierOf c = none := by
    simp [StatementForm.importSpecifierOf, show c.kind = .comment from of_decide_eq_true isComment]
  rw [filterMap_parts _ skips, filterMap_parts _ skips]
  have same := forall₂_filterMap twin.solidParts fun a b twin => twin.importSpecifier
  rw [List.forall₂_eq_eq_eq] at same
  exact same.symm

theorem wholeModule (twin : Twin T G i n n') :
    ((n'.namedChildren.filter (·.kind = .identifier)).getLast?).map Node.text =
      ((n.namedChildren.filter (·.kind = .identifier)).getLast?).map Node.text := by
  have names (m : Node) : m.namedChildren.filter (·.kind = .identifier) = m.children.filter (·.kind = .identifier) := by
    rw [Node.namedChildren, List.filter_filter]
    refine List.filter_congr fun c _ => ?_
    by_cases kind : c.kind = .identifier
    · simp [kind, Kind.isNamed]
    · simp [kind]
  rw [names, names]
  have last := getLast?_rel (twin.ofKind .identifier (by decide))
  have kinds (c : Node) (found : (n.children.filter (·.kind = .identifier)).getLast? = some c) : c.kind = .identifier :=
    of_decide_eq_true (List.mem_filter.mp (List.mem_of_getLast? found)).2
  generalize (n.children.filter (·.kind = .identifier)).getLast? = x,
    (n'.children.filter (·.kind = .identifier)).getLast? = y at last kinds ⊢
  cases last with
  | none => rfl
  | some inner => exact congrArg some (inner.bareName (.inl (kinds _ rfl)))

theorem importPart (twin : Twin T G i n n') (binding : Import) :
    StatementForm.importPart binding n' = StatementForm.importPart binding n := by
  unfold StatementForm.importPart
  rw [twin.kind]
  split
  · rename_i kind
    rw [twin.bareName (.inl kind)]
  · rw [twin.wholeModule]
  · rw [twin.importSpecifiers]
  · rfl

theorem importParts (nodes : List Node) (binding : Import) :
    nodes.foldl StatementForm.importPart binding =
      (nodes.filter (!·.isComment)).foldl StatementForm.importPart binding := by
  induction nodes generalizing binding with
  | nil => rfl
  | cons n rest ih =>
    cases comment : n.isComment with
    | false => simpa [comment] using ih _
    | true =>
      have idle : StatementForm.importPart binding n = binding := by
        simp [StatementForm.importPart, show n.kind = .comment from of_decide_eq_true comment]
      simpa [comment, idle] using ih binding

theorem importTwins {binding : Import} (twins : List.Forall₂ (Twin T G i) as bs) :
    bs.foldl StatementForm.importPart binding = as.foldl StatementForm.importPart binding := by
  induction twins generalizing binding with
  | nil => rfl
  | cons twin _ ih => rw [List.foldl_cons, List.foldl_cons, twin.importPart, ih]

theorem ofImport (twin : Twin T G i n n') (kind : n.kind = .importStatement) :
    StatementForm.ofImport n' = StatementForm.ofImport n := by
  have asked : Grammar.demand n.kind = .roles Grammar.nameWish := by rw [kind]; rfl
  have source : Option.Rel (fun c c' => c'.text = c.text) (n.child? .source) (n'.child? .source) := twin.name asked rfl
  have parts : List.Forall₂ (Twin T G i) ((n.children.filter (·.kind = .importClause)).flatMap Node.parts)
      ((n'.children.filter (·.kind = .importClause)).flatMap Node.parts) :=
    List.rel_flatMap (twin.ofKind .importClause (by decide)) fun _ _ clause => clause.solidParts
  have solid (m : Node) : ((m.children.filter (·.kind = .importClause)).flatMap Node.namedChildren).filter (!·.isComment) =
      (m.children.filter (·.kind = .importClause)).flatMap Node.parts := List.filter_flatMap
  unfold StatementForm.ofImport
  rw [twin.secondMark kind, twin.kind]
  generalize n.child? .source = x, n'.child? .source = y at source ⊢
  cases source with
  | none => rfl
  | some same =>
    dsimp only
    rw [importParts, importParts (List.flatMap _ (n.children.filter _)), solid, solid, importTwins parts, same]

theorem doc (twins : List.Forall₂ (Twin T G i) before before') :
    DocComment.find before' = DocComment.find before := by
  induction twins with
  | nil => rfl
  | @cons a b _ _ twin _ ih =>
    have alike : b.isComment = a.isComment := by rw [Node.isComment, Node.isComment, twin.kind]
    cases isComment : a.isComment with
    | false => simp [DocComment.find, alike, isComment]
    | true =>
      have text := twin.leaf (twin.shaped.idle (alike.trans isComment)).children
      simp only [DocComment.find, alike, isComment, text, ih]

theorem statement (twin : Twin T G i n n') (before : List.Forall₂ (Twin T G i) earlier earlier') :
    StatementForm.Alike T G (StatementForm.ofNode n earlier) (StatementForm.ofNode n' earlier') := by
  unfold StatementForm.ofNode
  rw [doc before, twin.kind]
  dsimp only
  split
  · rename_i kind
    exact twin.ofExport kind _
  · rename_i kind
    rw [twin.ofImport kind]
    exact .same _
  · exact declared_alike _ (twin.declaration _)

theorem statements (twins : List.Forall₂ (Twin T G i) nodes nodes')
    (before : List.Forall₂ (Twin T G i) earlier earlier') :
    List.Forall₂ (Statement.Alike T G) (statementsOf earlier nodes) (statementsOf earlier' nodes') := by
  induction twins generalizing earlier earlier' with
  | nil => exact .nil
  | @cons a b _ _ twin _ ih =>
    have alike : b.isComment = a.isComment := by rw [Node.isComment, Node.isComment, twin.kind]
    rw [statementsOf, statementsOf, alike]
    split
    · exact ih (.cons twin before)
    · exact .cons ⟨twin.statement before, twin.range⟩ (ih (.cons twin before))

end Twin

theorem eq_of_forall₂ {R : α → α → Prop} (same : ∀ a b, R a b → a = b) (all : List.Forall₂ R as bs) : as = bs := by
  rw [← List.forall₂_eq_eq_eq]
  exact all.imp same

theorem eq_of_rel {R : α → α → Prop} (same : ∀ a b, R a b → a = b) (rel : Option.Rel R x y) : x = y := by
  cases rel with
  | none => rfl
  | some head => rw [same _ _ head]

theorem TypeText.Alike.eq {t t' : TypeText} (alike : t.Alike Eq Eq t') : t = t' :=
  TypeText.ext alike.text alike.kind.symm alike.range

theorem TypeParameter.Alike.eq {p p' : TypeParameter} (alike : p.Alike Eq Eq p') : p = p' :=
  TypeParameter.ext alike.name.symm (eq_of_rel (fun _ _ => TypeText.Alike.eq) alike.constraint)
    (eq_of_rel (fun _ _ => TypeText.Alike.eq) alike.default)

theorem Heritage.Alike.eq {h h' : Heritage} (alike : h.Alike Eq Eq h') : h = h' :=
  Heritage.ext alike.form.symm alike.text (eq_of_forall₂ (fun _ _ => TypeText.Alike.eq) alike.arguments) alike.range

theorem ClassDeclaration.Alike.eq {d d' : ClassDeclaration} (alike : d.Alike Eq Eq d') : d = d' :=
  ClassDeclaration.ext alike.name.symm alike.isAbstract.symm
    (eq_of_forall₂ (fun _ _ => TypeParameter.Alike.eq) alike.parameters)
    (eq_of_rel (fun _ _ => Heritage.Alike.eq) alike.superclass)
    (eq_of_forall₂ (fun _ _ => Heritage.Alike.eq) alike.interfaces) alike.doc.symm alike.range

theorem InterfaceDeclaration.Alike.eq {d d' : InterfaceDeclaration} (alike : d.Alike Eq Eq d') : d = d' :=
  InterfaceDeclaration.ext alike.name.symm (eq_of_forall₂ (fun _ _ => TypeParameter.Alike.eq) alike.parameters)
    (eq_of_forall₂ (fun _ _ => Heritage.Alike.eq) alike.parents) alike.doc.symm alike.range

theorem AliasDeclaration.Alike.eq {d d' : AliasDeclaration} (alike : d.Alike Eq Eq d') : d = d' :=
  AliasDeclaration.ext alike.name.symm (eq_of_forall₂ (fun _ _ => TypeParameter.Alike.eq) alike.parameters)
    alike.value.eq alike.doc.symm alike.range

theorem EnumMember.Alike.eq {m m' : EnumMember} (alike : m.Alike Eq m') : m = m' := by
  obtain ⟨_, _, rfl, name, name'⟩ := alike.name
  exact EnumMember.ext (name.trans name'.symm) (eq_of_rel (fun _ _ => id) alike.value)

theorem EnumDeclaration.Alike.eq {d d' : EnumDeclaration} (alike : d.Alike Eq Eq d') : d = d' :=
  EnumDeclaration.ext alike.name.symm alike.isConst.symm (eq_of_forall₂ (fun _ _ => EnumMember.Alike.eq) alike.members)
    alike.doc.symm alike.range

theorem Declaration.Alike.eq (alike : Declaration.Alike Eq Eq d d') : d = d' := by
  cases alike with
  | classDecl alike => rw [alike.eq]
  | interfaceDecl alike => rw [alike.eq]
  | aliasDecl alike => rw [alike.eq]
  | enumDecl alike => rw [alike.eq]

theorem ExportSpecifier.Alike.eq {s s' : ExportSpecifier} (alike : s.Alike Eq s') : s = s' :=
  ExportSpecifier.ext alike.name.symm alike.otherName.symm alike.range

theorem StatementForm.Alike.eq (alike : StatementForm.Alike Eq Eq form form') : form = form' := by
  cases alike with
  | declaration mode alike => rw [alike.eq]
  | exportNamed source alike => rw [eq_of_forall₂ (fun _ _ => ExportSpecifier.Alike.eq) alike]
  | same _ => rfl

theorem Statement.Alike.eq {s s' : Statement} (alike : s.Alike Eq Eq s') : s = s' :=
  Statement.ext alike.form.eq alike.range

theorem Node.text_eq_moved {n n' : Node} (commented : n.Commented i unnoticed n') : n'.text = (n.moved i).text := by
  obtain ⟨_, _, start, stop, _⟩ := commented
  rw [Node.text, Node.text, Node.moved_start, Node.moved_stop, start, stop]

theorem unnoticed_moved (i : Insertion) (kind : Kind) (front behind : List Node) :
    unnoticed kind (front.map (Node.moved i)) (behind.map (Node.moved i)) = unnoticed kind front behind := by
  unfold unnoticed
  split
  · rfl
  · simp [List.any_map, Function.comp_def]
  · simp [List.any_map, Function.comp_def]
  · simp [List.any_map, Function.comp_def]
  · simp [List.head?_map, Option.any_map]
  · rfl

theorem counterpart_moved {n n' : Node} (commented : n.Commented i unnoticed n') :
    Counterpart Eq Eq i (n.moved i) n' := by
  induction n' using Node.induction_children generalizing n with
  | parent n' ih =>
    have text := Node.text_eq_moved commented
    obtain ⟨kind, role, start, stop, children⟩ := commented
    have range : (n.moved i).range = n'.range := by
      rw [Node.range, Node.range, Node.moved_start, Node.moved_stop, start, stop]
    refine .intro (by rw [kind, Node.moved_kind]) (by rw [role, Node.moved_role]) text.symm range (fun _ => text) ?_
    rw [Node.moved_kind, Node.moved_children]
    have inner : Interspersed (fun a b => Counterpart Eq Eq i (a.moved i) b) i.node unnoticed n.kind [] n.children
        n'.children := children.imp_mem fun _ _ b inside => ih b inside
    exact inner.map (unnoticed_moved i n.kind) fun _ _ alike => alike

theorem counterpart_told {n n' : Node} (whole : tree.Has n) (between : i.Between tree)
    (commented : n.Commented i unnoticed n') : Counterpart (i.Told tree) (fun _ _ => True) i n n' := by
  induction n' using Node.induction_children generalizing n with
  | parent n' ih =>
    have text := Node.text_eq_moved commented
    obtain ⟨kind, role, _, _, children⟩ := commented
    refine .intro kind role (text ▸ Insertion.told_moved whole) trivial (fun leaf => ?_) ?_
    · rw [text, Node.text_moved_kept (between n whole leaf)]
    · exact children.imp_mem fun a member b inside => ih b inside (whole.child member)

theorem child?_moved (n : Node) (part : Role) : (n.moved i).child? part = (n.child? part).map (Node.moved i) := by
  rw [Node.child?, Node.child?, Node.moved_children, List.find?_map]
  simp only [Function.comp_def, Node.moved_role]

-- Of a member with a value only the parts are told, of one without a value the whole.
theorem memberOf_moved {n : Node} (whole : n.kind = .enumAssignment ∨ (n.moved i).text = n.text)
    (parts : ∀ c ∈ n.children, (c.moved i).text = c.text) :
    Declaration.memberOf (n.moved i) = Declaration.memberOf n := by
  have told (part : Role) : ((n.moved i).child? part).map Node.text = (n.child? part).map Node.text := by
    rw [child?_moved, Option.map_map]
    exact Option.map_congr fun c found => parts c (List.mem_of_find?_eq_some found)
  have name (value : Option String) : ((n.moved i).child? .name).map (fun c => (⟨unquote c.text, value⟩ : EnumMember)) =
      (n.child? .name).map fun c => ⟨unquote c.text, value⟩ := by
    have texts := congrArg (Option.map fun text => (⟨unquote text, value⟩ : EnumMember)) (told .name)
    rwa [Option.map_map, Option.map_map] at texts
  unfold Declaration.memberOf
  rw [Node.moved_kind]
  split
  · rw [told .value]
    exact name _
  · rename_i other
    rw [whole.resolve_left other]

-- With a comment inside a statement, at a place of which the outline takes no notice, the outline is that of the tree
-- before with its places moved. So places change, and of the texts those of the nodes that the comment is put inside of;
-- a member of an enumeration stays as it is unless one of these is its name or its value.
theorem outline_commented (parsed : parseTree (dialectOf path) text = .ok tree)
    (parsed' : parseTree (dialectOf path) text' = .ok tree') (commented : tree.Commented i unnoticed tree')
    (between : i.Between tree) :
    ∃ file file', outline path text = .ok file ∧ outline path text' = .ok file' ∧
      file'.statements = statementsOf [] (tree.moved i).children ∧
      (∀ n, tree.Has n → n.Leaf ∨ ¬i.Spans n → (n.moved i).text = n.text) ∧
      (∀ n, tree.Has n → (n.kind = .enumAssignment ∨ n.Leaf ∨ ¬i.Spans n) → (∀ c ∈ n.children, c.Leaf ∨ ¬i.Spans c) →
        Declaration.memberOf (n.moved i) = Declaration.memberOf n) ∧
      List.Forall₂ (Statement.Alike (i.Told tree) fun _ _ => True) file.statements file'.statements := by
  have moved : Twin Eq Eq i (tree.moved i) tree' :=
    ⟨counterpart_moved commented, parseTree_shaped parsed', parseTree_parts parsed'⟩
  have told : Twin (i.Told tree) (fun _ _ => True) i tree tree' :=
    ⟨counterpart_told .here between commented, parseTree_shaped parsed', parseTree_parts parsed'⟩
  have side {T : String → String → Prop} {G : Range → Range → Prop} {n : Node} (twin : Twin T G i n tree') :
      List.Forall₂ (Twin T G i) n.children tree'.children := by
    refine twin.children.forall₂ fun front as => ?_
    rw [← twin.kind, parseTree_kind parsed']
    rfl
  have kept (n : Node) (inside : tree.Has n) (still : n.Leaf ∨ ¬i.Spans n) : (n.moved i).text = n.text :=
    Node.text_moved_kept (still.elim (between n inside) id)
  refine ⟨_, _, outline_of_parsed parsed, outline_of_parsed parsed', ?_, kept, fun n inside whole parts => ?_, ?_⟩
  · exact (eq_of_forall₂ (fun _ _ => Statement.Alike.eq) (Twin.statements (side moved) .nil)).symm
  · exact memberOf_moved (whole.imp_right (kept n inside)) fun c child => kept c (inside.child child) (parts c child)
  · exact Twin.statements (side told) .nil

-- An empty comment behind so many characters.
def mark (text : String) (width : Nat) : Insertion :=
  { place := (Cursor.start text).advance width, comment := "/**/" }

-- Both texts are read, the second with the comment at some place that is allowed, and the outlines are as `test` wants
-- them.
def checkTexts (i : Insertion) (place : Kind → List Node → List Node → Bool)
    (test : List Statement → List Statement → Bool) (text text' : String) : Bool :=
  match parseTree .plain text, parseTree .plain text' with
  | .ok tree, .ok tree' =>
    tree.isCommented i place tree' && (tree.isSpared i &&
      test (statementsOf [] tree.children) (statementsOf [] tree'.children))
  | _, _ => false

theorem trees_of_checkTexts (good : checkTexts i place test text text' = true) :
    ∃ tree tree', parseTree .plain text = .ok tree ∧ parseTree .plain text' = .ok tree' ∧
      tree.Commented i place tree' ∧ i.Between tree ∧
      test (statementsOf [] tree.children) (statementsOf [] tree'.children) = true := by
  unfold checkTexts at good
  split at good
  · rename_i tree tree' parsed parsed'
    obtain ⟨commented, rest⟩ := Bool.and_eq_true_iff.mp good
    obtain ⟨spared, wanted⟩ := Bool.and_eq_true_iff.mp rest
    exact ⟨tree, tree', parsed, parsed', Node.commented_of_isCommented tree' commented,
      Insertion.between_of_isSpared spared, wanted⟩
  · cases good

def heir : Insertion := mark "class A<T> extends B<C[]> \x7b\x7d" 22

-- The comment is put inside the type argument, and so inside its text.
theorem outline_commented_heir : ∃ tree tree', parseTree .plain "class A<T> extends B<C[]> \x7b\x7d" = .ok tree ∧
    parseTree .plain "class A<T> extends B<C/**/[]> \x7b\x7d" = .ok tree' ∧ tree.Commented heir unnoticed tree' ∧
    heir.Between tree ∧
    ∃ file file', outline ⟨"a.ts"⟩ "class A<T> extends B<C[]> \x7b\x7d" = .ok file ∧
      outline ⟨"a.ts"⟩ "class A<T> extends B<C/**/[]> \x7b\x7d" = .ok file' ∧
      file'.statements = statementsOf [] (tree.moved heir).children ∧
      (∀ n, tree.Has n → n.Leaf ∨ ¬heir.Spans n → (n.moved heir).text = n.text) ∧
      (∀ n, tree.Has n → (n.kind = .enumAssignment ∨ n.Leaf ∨ ¬heir.Spans n) →
        (∀ c ∈ n.children, c.Leaf ∨ ¬heir.Spans c) → Declaration.memberOf (n.moved heir) = Declaration.memberOf n) ∧
      List.Forall₂ (Statement.Alike (heir.Told tree) fun _ _ => True) file.statements file'.statements := by
  have good : checkTexts heir unnoticed (fun _ _ => true) "class A<T> extends B<C[]> \x7b\x7d"
      "class A<T> extends B<C/**/[]> \x7b\x7d" = true := by decide +kernel
  obtain ⟨tree, tree', parsed, parsed', commented, between, _⟩ := trees_of_checkTexts good
  have plain : dialectOf ⟨"a.ts"⟩ = .plain := by decide +kernel
  exact ⟨tree, tree', parsed, parsed', commented, between,
    outline_commented (plain ▸ parsed) (plain ▸ parsed') commented between⟩

-- Kinds of the bounds and defaults of type parameters, the name of a whole module, and whether only types come in.
def headline : StatementForm → List String
  | .declaration _ decl => decl.parameters.flatMap fun p => p.constraint.toList.map (·.kind) ++ p.default.toList.map (·.kind)
  | .exportNamespace name _ => [name]
  | .importFrom binding => if binding.typeOnly then ["type"] else []
  | _ => []

theorem Declaration.Alike.parameters (alike : Declaration.Alike T G d d') :
    List.Forall₂ (TypeParameter.Alike T G) d.parameters d'.parameters := by
  cases alike with
  | classDecl alike => exact alike.parameters
  | interfaceDecl alike => exact alike.parameters
  | aliasDecl alike => exact alike.parameters
  | enumDecl _ => exact .nil

theorem headline_alike (alike : StatementForm.Alike T G form form') : headline form' = headline form := by
  have kinds {x y : Option TypeText} (rel : Option.Rel (TypeText.Alike T G) x y) :
      y.toList.map (·.kind) = x.toList.map (·.kind) := by
    cases rel with
    | none => rfl
    | some alike => simp [alike.kind]
  cases alike with
  | exportNamed _ _ | same _ => rfl
  | @declaration decl decl' mode alike =>
    unfold headline
    dsimp only
    have alike := alike.parameters
    generalize decl.parameters = ps, decl'.parameters = ps' at alike ⊢
    induction alike with
    | nil => rfl
    | cons alike _ ih => rw [List.flatMap_cons, List.flatMap_cons, ih, kinds alike.constraint, kinds alike.default]

-- The comment is put between two tokens of a statement, and the statement is told otherwise.
def ToldIn (width : Nat) (text text' : String) : Prop :=
  ∃ tree tree', parseTree .plain text = .ok tree ∧ parseTree .plain text' = .ok tree' ∧
    tree.Commented (mark text width) (fun kind _ _ => kind != .program) tree' ∧ (mark text width).Between tree ∧
    ¬List.Forall₂ (Statement.Alike (fun _ _ => True) fun _ _ => True) (statementsOf [] tree.children)
      (statementsOf [] tree'.children)

theorem toldIn_of_check (good : checkTexts (mark text width) (fun kind _ _ => kind != .program)
    (fun before after => before.map (headline ·.form) ≠ after.map (headline ·.form)) text text' = true) :
    ToldIn width text text' := by
  obtain ⟨tree, tree', parsed, parsed', commented, between, differ⟩ := trees_of_checkTexts good
  refine ⟨tree, tree', parsed, parsed', commented, between, fun alike => of_decide_eq_true differ ?_⟩
  generalize statementsOf [] tree.children = before, statementsOf [] tree'.children = after at alike ⊢
  induction alike with
  | nil => rfl
  | cons alike _ ih => rw [List.map_cons, List.map_cons, headline_alike alike.form, ih]

-- Each of the four places is one where the outline does take notice.
theorem comments_told : ToldIn 16 "type A<T extends B> = C" "type A<T extends/**/ B> = C" ∧
    ToldIn 10 "type A<T = B> = C" "type A<T =/**/ B> = C" ∧
    ToldIn 11 "export * as n from 'm'" "export * as/**/ n from 'm'" ∧
    ToldIn 6 "import type A from 'm'" "import/**/ type A from 'm'" := by
  refine ⟨?_, ?_, ?_, ?_⟩
  · exact toldIn_of_check (by decide +kernel)
  · exact toldIn_of_check (by decide +kernel)
  · exact toldIn_of_check (by decide +kernel)
  · exact toldIn_of_check (by decide +kernel)

end ComponentAtlas.Outline
