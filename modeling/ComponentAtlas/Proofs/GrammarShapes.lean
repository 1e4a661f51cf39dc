import ComponentAtlas.Proofs.RuleReads
import ComponentAtlas.Source.Tree

namespace ComponentAtlas.Source

def Node.solid (n : Node) : List Node := n.children.filter (!·.isComment)

def Reader.solid (s : Reader) : List Node := (s.out.filter (!·.isComment)).reverse

namespace Rule

variable {σ : Type} {table : σ → Rule σ} {p q : List Node → Prop}

-- Whenever the rule succeeds, it adds nodes of which `q` holds, comments apart.
def Adds (table : σ → Rule σ) (rule : Rule σ) (q : List Node → Prop) : Prop :=
  ∀ may s t, Reads table may rule s t → s.Quiet → ∃ nodes, q nodes ∧ t.solid = s.solid ++ nodes

theorem Adds.imp (adds : Adds table r p) (weaker : ∀ nodes, p nodes → q nodes) : Adds table r q := by
  intro may s t read quiet
  obtain ⟨nodes, holds, out⟩ := adds may s t read quiet
  exact ⟨nodes, weaker nodes holds, out⟩

theorem filter_idle {waiting : List Node} (idle : ∀ n ∈ waiting, n.Idle) : waiting.filter (!·.isComment) = [] := by
  refine List.filter_eq_nil_iff.mpr fun n member => ?_
  simp [Node.isComment, (idle n member).comment]

theorem solid_cons {s t : Reader} (quiet : s.Quiet) (named : n.kind ≠ .comment)
    (out : t.out = n :: (s.gap ++ s.out)) : t.solid = s.solid ++ [n] := by
  have solid : n.isComment = false := decide_eq_false named
  rw [Reader.solid, out, List.filter_cons_of_pos (by simp [solid]), List.filter_append, filter_idle quiet]
  simp [Reader.solid]

theorem adds_token (named : kind ≠ .comment) :
    Adds table (.token kind scan) fun nodes => ∃ n, nodes = [n] ∧ n.kind = kind ∧ n.role = none := by
  intro may s t read quiet
  cases read with
  | token taken =>
    obtain ⟨stop, out, _⟩ := Reader.token_cases taken
    exact ⟨_, ⟨_, rfl, rfl, rfl⟩, solid_cons quiet named out⟩

theorem adds_nil : Adds table (.seq []) (· = []) := by
  intro may s t read quiet
  cases read with
  | nil => exact ⟨[], rfl, by simp⟩

theorem Adds.cons (first : Adds table r p) (rest : Adds table (.seq rs) q) :
    Adds table (.seq (r :: rs)) fun nodes => ∃ a b, nodes = a ++ b ∧ p a ∧ q b := by
  intro may s t read quiet
  cases read with
  | cons one two =>
    obtain ⟨a, holds, out⟩ := first _ _ _ one quiet
    obtain ⟨b, holds', out'⟩ := rest _ _ _ two (one.quiet quiet)
    exact ⟨a ++ b, ⟨a, b, rfl, holds, holds'⟩, by rw [out', out, List.append_assoc]⟩

theorem adds_alt (all : ∀ r ∈ rs, Adds table r q) : Adds table (.alt rs) q := by
  intro may s t read quiet
  cases read with
  | alt member read => exact all _ member _ _ _ read quiet

-- As often as the star repeats.
inductive Repeated (q : List Node → Prop) : List Node → Prop where
  | nil : Repeated q []
  | cons (first : q a) (rest : Repeated q b) : Repeated q (a ++ b)

theorem Adds.star (adds : Adds table r q) : Adds table (.star r) (Repeated q) := by
  intro may s t read
  generalize whole : Rule.star r = rule at read
  induction read with
  | enough =>
    intro _
    exact ⟨[], .nil, by simp⟩
  | again first _ _ ih =>
    cases whole
    intro quiet
    obtain ⟨a, holds, out⟩ := adds _ _ _ first quiet
    obtain ⟨b, more, out'⟩ := ih rfl (first.quiet quiet)
    exact ⟨a ++ b, .cons holds more, by rw [out', out, List.append_assoc]⟩
  | _ => cases whole

theorem Adds.call (adds : Adds table (table symbol) q) : Adds table (.call symbol) q := by
  intro may s t read quiet
  cases read with
  | call read => exact adds _ _ _ read quiet

theorem Adds.lines (adds : Adds table r q) : Adds table (.lines within r) q := by
  intro may s t read quiet
  cases read with
  | lines read => exact adds _ _ _ read quiet

theorem adds_node (named : kind ≠ .comment) :
    Adds table (.node kind r) fun nodes => ∃ n, nodes = [n] ∧ n.kind = kind ∧ n.role = none := by
  intro may s t read quiet
  cases read with
  | node read => exact ⟨_, ⟨_, rfl, rfl, rfl⟩, solid_cons quiet named rfl⟩

theorem Adds.role (adds : Adds table r q) :
    Adds table (.role part r) fun nodes => ∃ own, q own ∧ nodes = own.map (·.withRole part) := by
  intro may s t read quiet
  cases read with
  | role read =>
    rename_i t
    obtain ⟨own, holds, out⟩ := adds _ _ _ read nofun
    refine ⟨_, ⟨own, holds, rfl⟩, ?_⟩
    have inner : t.solid = own := by simpa [Reader.solid, Reader.enter] using out
    have marked : (t.out.map fun n => if n.isComment then n else n.withRole part).filter (!·.isComment) =
        (t.out.filter (!·.isComment)).map (·.withRole part) := by
      induction t.out with
      | nil => rfl
      | cons n rest ih =>
        cases comment : n.isComment with
        | true => simp [comment, ih]
        | false =>
          have kept : (n.withRole part).isComment = false := comment
          simp [comment, kept, ih]
    rw [← inner]
    simp [Reader.solid, Reader.leave, marked, filter_idle quiet]

theorem adds_goesOn : Adds table (.goesOn afterValue) (· = []) := by
  intro may s t read quiet
  cases read with
  | goesOn => exact ⟨[], rfl, by simp⟩

theorem adds_lineBreak : Adds table (.lineBreak afterValue) (· = []) := by
  intro may s t read quiet
  cases read with
  | lineBreak ends =>
    obtain ⟨taken, out, waiting, _⟩ := Reader.lineBreak?_cases ends
    have idle : ∀ n ∈ taken, n.Idle := fun n member => quiet n (waiting n member)
    exact ⟨[], rfl, by simp [Reader.solid, out, filter_idle idle]⟩

-- A rule that leaves one node adds it.
theorem adds_one (sound : ∀ symbol, single symbol = true →
      yields single false (table symbol) .nothing = .one ∨ yields single false (table symbol) .nothing = .never)
    (one : yields single false r .nothing = .one) :
    Adds table r fun nodes => ∃ n, nodes = [n] ∧ isPart n.kind = true := by
  intro may s t read quiet
  have left : Left s (yields single false r .nothing) t := read.left sound nofun ⟨rfl, rfl⟩
  rw [one] at left
  obtain ⟨n, part, out⟩ := left
  have named : n.kind ≠ .comment := by
    intro comment
    simp [isPart, comment] at part
  exact ⟨_, ⟨n, rfl, part⟩, solid_cons quiet named out⟩

theorem Adds.inside (adds : Adds table r q) (read : Reads table may r (Reader.enter s) t) :
    q (t.out.reverse.filter (!·.isComment)) := by
  obtain ⟨nodes, holds, out⟩ := adds _ _ _ read nofun
  have same : t.out.reverse.filter (!·.isComment) = nodes := by
    rw [List.filter_reverse]
    simpa [Reader.solid, Reader.enter] using out
  exact same ▸ holds

end Rule

namespace Grammar
open Rule

def single : Nonterminal → Bool
  | .type | .unionOperand | .typeOperand | .primaryType | .functionType | .typeArguments | .objectType
  | .expression | .operand | .plainOperand | .unary | .suffixed | .primary | .arrow | .object | .array | .template
  | .heritageValue | .markup | .internalModule | .classExpression => true
  | _ => false

theorem single_sound (dialect : Dialect) (symbol : Nonterminal) (known : single symbol = true) :
    yields single false (table dialect symbol) .nothing = .one ∨
      yields single false (table dialect symbol) .nothing = .never := by
  cases dialect <;> cases symbol <;> first | exact .inl rfl | exact .inr rfl | cases known

end Grammar

def Node.isComma (n : Node) : Bool := n.kind = .mark ","

-- What stands between the commas; the commas themselves play no part.
structure Listed (q : List Node → Prop) (nodes : List Node) : Prop where
  pieces : ∀ piece ∈ nodes.splitOnP Node.isComma, q piece
  commas : ∀ n ∈ nodes, n.isComma = true → n.role = none

namespace Grammar
open Rule

variable {table : Nonterminal → Piece} {q : List Node → Prop}

theorem adds_comma : Adds table comma fun nodes => ∃ n, nodes = [n] ∧ n.isComma = true ∧ n.role = none := by
  refine (adds_token (by decide)).imp ?_
  rintro nodes ⟨n, rfl, kind, role⟩
  exact ⟨n, rfl, decide_eq_true kind, role⟩

theorem adds_commaList (adds : Adds table piece q) (plain : ∀ nodes, q nodes → ∀ n ∈ nodes, n.isComma = false) :
    Adds table (commaList piece) (Listed q) := by
  refine (adds.cons (((adds_comma.cons (adds.cons adds_nil)).star).cons adds_nil)).imp ?_
  rintro nodes ⟨first, _, rfl, holds, rest, _, rfl, repeated, rfl⟩
  rw [List.append_nil]
  -- The pieces behind the commas are cut off one by one, the first piece being any.
  induction repeated generalizing first with
  | nil =>
    rw [List.append_nil]
    refine ⟨fun piece member => ?_, fun n member comma => ?_⟩
    · rw [List.splitOnP_eq_singleton (plain first holds)] at member
      exact List.mem_singleton.mp member ▸ holds
    · simp [plain first holds n member] at comma
  | cons next _ ih =>
    obtain ⟨_, _, rfl, ⟨c, rfl, separates, role⟩, second, _, rfl, holds', rfl⟩ := next
    obtain ⟨pieces, commas⟩ := ih second holds'
    rw [List.append_nil, List.append_assoc, List.singleton_append]
    refine ⟨fun piece member => ?_, fun n member comma => ?_⟩
    · rw [List.splitOnP_append_cons_of_forall_mem (plain first holds) c separates] at member
      rcases List.mem_cons.mp member with rfl | later
      · exact holds
      · exact pieces piece later
    · rcases List.mem_append.mp member with early | later
      · simp [plain first holds n early] at comma
      · rcases List.mem_cons.mp later with rfl | later
        · exact role
        · exact commas n later comma

-- A value, possibly with type arguments.
def ValuePiece (piece : List Node) : Prop :=
  ∃ value, value.role = some .value ∧ value.isComma = false ∧
    (piece = [value] ∨ ∃ arguments, piece = [value, arguments] ∧ arguments.role = some .typeArguments ∧
      arguments.kind = .typeArguments)

def TypePiece (piece : List Node) : Prop := ∃ n, piece = [n] ∧ isPart n.kind = true

def MarkedPiece (piece : List Node) : Prop := ∃ n, piece = [n] ∧ isPart n.kind = true ∧ n.role = some .type

def Clause (word : String) (q : List Node → Prop) (nodes : List Node) : Prop :=
  ∃ keyword body, nodes = keyword :: body ∧ keyword.kind = .mark word ∧ keyword.role = none ∧ Listed q body

-- What the children of a node are, by its kind.
def shape : Kind → List Node → Prop
  | .extendsClause, children => Clause "extends" ValuePiece (children.filter (!·.isComment))
  | .implementsClause, children => Clause "implements" TypePiece (children.filter (!·.isComment))
  | .extendsTypeClause, children => Clause "extends" MarkedPiece (children.filter (!·.isComment))
  | .genericType, children =>
    ∃ name arguments, children.filter (!·.isComment) = [name, arguments] ∧ name.role = some .name ∧
      name.kind ≠ .identifier ∧ arguments.role = some .typeArguments
  | .classHeritage, children =>
    ∃ extension implementation : Option Node,
      children.filter (!·.isComment) = extension.toList ++ implementation.toList ∧
      (∀ clause ∈ extension, clause.kind = .extendsClause) ∧ ∀ clause ∈ implementation, clause.kind = .implementsClause
  | .classDeclaration, children | .abstractClassDeclaration, children =>
    (children.filter (·.kind = .classHeritage)).length ≤ 1 ∧ ∃ c ∈ children, c.role = some .name
  | .classExpression, children => (children.filter (·.kind = .classHeritage)).length ≤ 1
  | .interfaceDeclaration, children => ∃ c ∈ children, c.role = some .name
  | .identifier, children | .typeIdentifier, children => children = []
  | _, _ => True

def isFree : Kind → Bool
  | .comment | .extendsClause | .implementsClause | .extendsTypeClause | .genericType | .classHeritage
  | .classDeclaration | .abstractClassDeclaration | .classExpression | .interfaceDeclaration | .identifier
  | .typeIdentifier => false
  | _ => true

def isName : Kind → Bool
  | .identifier | .typeIdentifier => true
  | _ => false

theorem shape_free (kind : Kind) (free : isFree kind = true) : kind ≠ .comment ∧ ∀ children, shape kind children := by
  constructor
  · rintro rfl
    cases free
  · intro children
    unfold shape
    split <;> first | exact trivial | cases free

theorem shape_leaf (kind : Kind) (free : (isFree kind || isName kind) = true) : kind ≠ .comment ∧ shape kind [] := by
  rcases Bool.or_eq_true_iff.mp free with free | named
  · exact ⟨(shape_free kind free).1, (shape_free kind free).2 []⟩
  · unfold isName at named
    split at named
    · exact ⟨by decide, rfl⟩
    · exact ⟨by decide, rfl⟩
    · cases named

theorem shapes_plain (plain : made (fun kind => isFree kind || isName kind) isFree r = true) : Shapes table shape r :=
  shapes_of_made shape_leaf shape_free r plain

-- Most rules make no node of which anything is asked.
theorem table_plain (dialect : Dialect) (symbol : Nonterminal)
    (ordinary : symbol ≠ .classHeritage ∧ symbol ≠ .classDeclaration ∧ symbol ≠ .classExpression ∧
      symbol ≠ .declaration ∧ symbol ≠ .primaryType) :
    made (fun kind => isFree kind || isName kind) isFree (Grammar.table dialect symbol) = true := by
  cases dialect <;> cases symbol <;> first | rfl | simp at ordinary

variable (dialect : Dialect)

theorem adds_single (one : yields single false r .nothing = .one) :
    Adds (Grammar.table dialect) r fun nodes => ∃ n, nodes = [n] ∧ isPart n.kind = true :=
  adds_one (single_sound dialect) one

theorem adds_typeArguments : Adds (Grammar.table dialect) (.role .typeArguments (.call .typeArguments)) fun nodes =>
    ∃ n, nodes = [n] ∧ n.role = some .typeArguments ∧ n.kind = .typeArguments := by
  have alone : Adds (Grammar.table dialect) (.call .typeArguments) fun nodes =>
      ∃ n, nodes = [n] ∧ n.kind = .typeArguments ∧ n.role = none := (adds_node (by decide)).call
  refine alone.role.imp ?_
  rintro nodes ⟨own, ⟨n, rfl, kind, _⟩, rfl⟩
  exact ⟨_, rfl, rfl, kind⟩

theorem not_comma {n : Node} (part : isPart n.kind = true) : n.isComma = false := by
  refine decide_eq_false fun comma => ?_
  simp [isPart, comma, Kind.isNamed] at part

theorem adds_valuePiece : Adds (Grammar.table dialect)
    (seq [.role .value (.call .heritageValue), opt [.role .typeArguments (.call .typeArguments)]]) ValuePiece := by
  have value : Adds (Grammar.table dialect) (.role .value (.call .heritageValue)) _ :=
    (adds_single dialect rfl).role
  have arguments : Adds (Grammar.table dialect) (opt [.role .typeArguments (.call .typeArguments)]) fun nodes =>
      nodes = [] ∨ ∃ n, nodes = [n] ∧ n.role = some .typeArguments ∧ n.kind = .typeArguments := by
    refine adds_alt ?_
    simp only [List.mem_cons, List.not_mem_nil, or_false, forall_eq_or_imp, forall_eq]
    refine ⟨((adds_typeArguments dialect).cons adds_nil).imp ?_, adds_nil.imp fun _ none => .inl none⟩
    rintro nodes ⟨_, _, rfl, ⟨n, rfl, role, kind⟩, rfl⟩
    exact .inr ⟨n, rfl, role, kind⟩
  refine (value.cons (arguments.cons adds_nil)).imp ?_
  rintro nodes ⟨_, _, rfl, ⟨_, ⟨n, rfl, part⟩, rfl⟩, more, _, rfl, either, rfl⟩
  refine ⟨n.withRole .value, rfl, not_comma part, ?_⟩
  rcases either with rfl | ⟨args, rfl, role, kind⟩
  · exact .inl rfl
  · exact .inr ⟨args, rfl, role, kind⟩

theorem adds_clause (adds : Adds table piece q) (plain : ∀ nodes, q nodes → ∀ n ∈ nodes, n.isComma = false)
    (text : String) : Adds table (seq [word text, commaList piece]) (Clause text q) := by
  have keyword : Adds table (word text) _ := adds_token (by simp)
  refine (keyword.cons ((adds_commaList adds plain).cons adds_nil)).imp ?_
  rintro nodes ⟨_, _, rfl, ⟨n, rfl, kind, role⟩, body, _, rfl, listed, rfl⟩
  exact ⟨n, body, by simp, kind, role, listed⟩

theorem adds_extension : Adds (Grammar.table dialect)
    (seq [word "extends", commaList (seq
      [.role .value (.call .heritageValue), opt [.role .typeArguments (.call .typeArguments)]])])
    (Clause "extends" ValuePiece) := by
  refine adds_clause (adds_valuePiece dialect) ?_ _
  rintro nodes ⟨value, _, plain, rfl | ⟨args, rfl, _, kind⟩⟩
  · simp [plain]
  · have other : args.isComma = false := decide_eq_false (by simp [kind])
    simp [plain, other]

theorem adds_implementation :
    Adds (Grammar.table dialect) (seq [word "implements", commaList type]) (Clause "implements" TypePiece) := by
  refine adds_clause (adds_single dialect rfl) ?_ _
  rintro nodes ⟨n, rfl, part⟩
  simp [not_comma part]

theorem adds_interfaceExtension : Adds (Grammar.table dialect)
    (seq [word "extends", commaList (.role .type namedType)]) (Clause "extends" MarkedPiece) := by
  have marked : Adds (Grammar.table dialect) (.role .type namedType) MarkedPiece := by
    refine (adds_single dialect rfl).role.imp ?_
    rintro nodes ⟨_, ⟨n, rfl, part⟩, rfl⟩
    exact ⟨n.withRole .type, rfl, part, rfl⟩
  refine adds_clause marked ?_ _
  rintro nodes ⟨n, rfl, part, _⟩
  simp [not_comma part]

theorem adds_heritage (one two : Piece) : Adds table
    (oneOf [seq [.node .extendsClause one, opt [.node .implementsClause two]], .node .implementsClause two])
    fun nodes => ∃ extension implementation : Option Node, nodes = extension.toList ++ implementation.toList ∧
      (∀ clause ∈ extension, clause.kind = .extendsClause) ∧
      ∀ clause ∈ implementation, clause.kind = .implementsClause := by
  have extension : Adds table (.node .extendsClause one) _ := adds_node (by decide)
  have implementation : Adds table (.node .implementsClause two) _ := adds_node (by decide)
  have optional : Adds table (opt [.node .implementsClause two]) fun nodes =>
      ∃ clause : Option Node, nodes = clause.toList ∧ ∀ n ∈ clause, n.kind = .implementsClause := by
    refine adds_alt ?_
    simp only [List.mem_cons, List.not_mem_nil, or_false, forall_eq_or_imp, forall_eq]
    refine ⟨(implementation.cons adds_nil).imp ?_, adds_nil.imp ?_⟩
    · rintro nodes ⟨_, _, rfl, ⟨n, rfl, kind, _⟩, rfl⟩
      exact ⟨some n, rfl, by simpa using kind⟩
    · rintro nodes rfl
      exact ⟨none, rfl, by simp⟩
  refine adds_alt ?_
  simp only [List.mem_cons, List.not_mem_nil, or_false, forall_eq_or_imp, forall_eq]
  refine ⟨(extension.cons (optional.cons adds_nil)).imp ?_, implementation.imp ?_⟩
  · rintro nodes ⟨_, _, rfl, ⟨n, rfl, kind, _⟩, _, _, rfl, ⟨clause, rfl, kind'⟩, rfl⟩
    exact ⟨some n, clause, by simp, by simpa using kind, kind'⟩
  · rintro nodes ⟨n, rfl, kind, _⟩
    exact ⟨none, some n, rfl, by simp, by simpa using kind⟩

theorem shapes_classHeritage : Shapes (Grammar.table dialect) shape classHeritageRule := by
  have extension := adds_extension dialect
  have implementation := adds_implementation dialect
  have first : Shapes (Grammar.table dialect) shape (.node .extendsClause (seq [word "extends", commaList (seq
      [.role .value (.call .heritageValue), opt [.role .typeArguments (.call .typeArguments)]])])) :=
    ⟨by decide, shapes_plain rfl, fun _ _ _ read _ => extension.inside read⟩
  have second : Shapes (Grammar.table dialect) shape
      (.node .implementsClause (seq [word "implements", commaList type])) :=
    ⟨by decide, shapes_plain rfl, fun _ _ _ read _ => implementation.inside read⟩
  refine ⟨by decide, ⟨⟨first, ⟨⟨second, trivial⟩, trivial, trivial⟩, trivial⟩, second, trivial⟩, ?_⟩
  intro may s t read _
  exact (adds_heritage _ _).inside read

theorem shapes_namedType : Shapes (Grammar.table dialect) shape namedType := by
  refine ⟨⟨by decide, shapes_plain rfl, ?_⟩, shapes_plain rfl, trivial⟩
  intro may s t read _
  have plain : Adds (Grammar.table dialect) (oneOf [.node .nestedTypeIdentifier (seq
      [ .frame (seq
          [ name .identifier,
            many [.fold .nestedIdentifier (seq [mark ".", name .propertyIdentifier, .ahead (mark ".")])] ]),
        mark ".",
        .role .name typeName ]), typeName]) fun nodes => ∃ n, nodes = [n] ∧ n.kind ≠ .identifier := by
    refine adds_alt ?_
    simp only [List.mem_cons, List.not_mem_nil, or_false, forall_eq_or_imp, forall_eq]
    refine ⟨(adds_node (by decide)).imp ?_, (adds_token (by decide)).imp ?_⟩
    · rintro nodes ⟨n, rfl, kind, _⟩
      exact ⟨n, rfl, by simp [kind]⟩
    · rintro nodes ⟨n, rfl, kind, _⟩
      exact ⟨n, rfl, by simp [kind]⟩
  have whole := (plain.role.cons (adds_goesOn.cons ((adds_typeArguments dialect).cons adds_nil))).inside read
  obtain ⟨_, _, out, ⟨_, ⟨n, rfl, kind⟩, rfl⟩, _, _, rfl, rfl, _, _, rfl, ⟨args, rfl, role, _⟩, rfl⟩ := whole
  exact ⟨n.withRole .name, args, by simpa using out, rfl, kind, role⟩

theorem shapes_primaryType : Shapes (Grammar.table dialect) shape primaryTypeRule := by
  have named := shapes_namedType dialect
  refine ⟨?_, shapes_plain rfl, trivial⟩
  repeat' first | exact shapes_plain rfl | exact named | exact trivial | refine ⟨?_, ?_⟩

def Heirs (most : Nat) (nodes : List Node) : Prop := (nodes.filter (·.kind = .classHeritage)).length ≤ most

theorem Heirs.append (one : Heirs m a) (two : Heirs k b) : Heirs (m + k) (a ++ b) := by
  unfold Heirs at *
  rw [List.filter_append, List.length_append]
  exact Nat.add_le_add one two

theorem heirs_none (other : n.kind ≠ .classHeritage) : Heirs 0 [n] := by simp [Heirs, other]

theorem heirs_other (adds : Adds table r fun nodes => ∃ n, nodes = [n] ∧ n.kind = kind ∧ n.role = none)
    (other : kind ≠ .classHeritage) : Adds table r (Heirs 0) := by
  refine adds.imp ?_
  rintro nodes ⟨n, rfl, same, _⟩
  exact heirs_none (same ▸ other)

theorem heirs_cons (one : Adds table r (Heirs m)) (rest : Adds table (.seq rs) (Heirs k)) :
    Adds table (.seq (r :: rs)) (Heirs (m + k)) := by
  refine (one.cons rest).imp ?_
  rintro nodes ⟨a, b, rfl, first, second⟩
  exact first.append second

theorem heirs_nil : Adds table (.seq []) (Heirs 0) := by
  refine adds_nil.imp ?_
  rintro nodes rfl
  exact Nat.le_refl 0

theorem heirs_opt (adds : Adds table r (Heirs m)) : Adds table (opt [r]) (Heirs m) := by
  refine adds_alt ?_
  simp only [List.mem_cons, List.not_mem_nil, or_false, forall_eq_or_imp, forall_eq]
  exact ⟨heirs_cons adds heirs_nil, heirs_nil.imp fun _ none => Nat.le_trans none (Nat.zero_le m)⟩

theorem heirs_role (adds : Adds table r (Heirs m)) : Adds table (.role part r) (Heirs m) := by
  refine adds.role.imp ?_
  rintro nodes ⟨own, few, rfl⟩
  rw [Heirs, List.filter_map, List.length_map]
  exact few

def Titled (nodes : List Node) : Prop := ∃ n ∈ nodes, n.role = some .name

theorem adds_title (named : kind ≠ .comment) : Adds table (.role .name (.token kind scan)) Titled := by
  refine (adds_token named).role.imp ?_
  rintro nodes ⟨_, ⟨n, rfl, _⟩, rfl⟩
  exact ⟨n.withRole .name, List.mem_singleton_self _, rfl⟩

theorem titled_here (one : Adds table r Titled) (rest : Adds table (.seq rs) q) :
    Adds table (.seq (r :: rs)) Titled := by
  refine (one.cons rest).imp ?_
  rintro nodes ⟨a, b, rfl, ⟨n, member, role⟩, _⟩
  exact ⟨n, List.mem_append_left b member, role⟩

theorem titled_later (one : Adds table r q) (rest : Adds table (.seq rs) Titled) :
    Adds table (.seq (r :: rs)) Titled := by
  refine (one.cons rest).imp ?_
  rintro nodes ⟨a, b, rfl, _, n, member, role⟩
  exact ⟨n, List.mem_append_right a member, role⟩

theorem titled_inside (adds : Adds table r Titled) (read : Reads table may r (Reader.enter s) t) :
    ∃ c ∈ t.out.reverse, c.role = some .name := by
  obtain ⟨n, member, role⟩ := adds.inside read
  exact ⟨n, (List.mem_filter.mp member).1, role⟩

theorem adds_decorators : Adds (Grammar.table dialect) decorators (Heirs 0) := by
  have decorator : Adds (Grammar.table dialect) (.call .decorator) (Heirs 0) :=
    (heirs_other (adds_node (by decide)) (by decide)).call
  refine decorator.star.imp fun nodes repeated => ?_
  induction repeated with
  | nil => exact Nat.le_refl 0
  | cons first _ ih => exact first.append ih

theorem adds_parameters :
    Adds (Grammar.table dialect) (opt [.role .typeParameters (.call .typeParameters)]) (Heirs 0) :=
  heirs_opt (heirs_role (heirs_other (adds_node (by decide)) (by decide)).call)

theorem adds_optionalHeritage : Adds (Grammar.table dialect) (opt [.call .classHeritage]) (Heirs 1) := by
  refine heirs_opt ((adds_node (by decide)).call.imp ?_)
  rintro nodes ⟨n, rfl, _⟩
  exact List.length_filter_le _ _

theorem heirs_classHeading (keyword : Adds (Grammar.table dialect) classWord (Heirs 0))
    (named : Adds (Grammar.table dialect) title (Heirs 0)) :
    Adds (Grammar.table dialect) (classHeading classWord title) (Heirs 1) := by
  have rest := heirs_cons (adds_parameters dialect) (heirs_cons (adds_optionalHeritage dialect) heirs_nil)
  exact (heirs_cons (adds_decorators dialect) (heirs_cons keyword (heirs_cons named rest))).lines

theorem titled_classHeading (keyword : Adds (Grammar.table dialect) classWord (Heirs 0))
    (named : Adds (Grammar.table dialect) title Titled) :
    Adds (Grammar.table dialect) (classHeading classWord title) Titled := by
  have rest := heirs_cons (adds_parameters dialect) (heirs_cons (adds_optionalHeritage dialect) heirs_nil)
  exact (titled_later (adds_decorators dialect) (titled_later keyword (titled_here named rest))).lines

theorem heirs_inside (adds : Adds table r (Heirs m)) (read : Reads table may r (Reader.enter s) t) :
    (t.out.reverse.filter (·.kind = .classHeritage)).length ≤ m := by
  have solid := adds.inside read
  rw [Heirs, List.filter_filter] at solid
  refine Nat.le_trans (Nat.le_of_eq (congrArg List.length (List.filter_congr fun n _ => ?_))) solid
  by_cases heir : n.kind = .classHeritage
  · simp [heir, Node.isComment]
  · simp [heir]

theorem adds_className : Adds table className (Heirs 0) :=
  heirs_role (heirs_other (adds_token (by decide)) (by decide))

theorem titled_className : Adds table className Titled := adds_title (by decide)

theorem adds_word (text : String) : Adds table (word text) (Heirs 0) :=
  heirs_other (adds_token (by simp)) (by simp)

theorem adds_classBody : Adds (Grammar.table dialect) (.role .body (.call .classBody)) (Heirs 0) :=
  heirs_role (heirs_other (adds_node (by decide)) (by decide)).call

theorem shapes_classDeclaration : Shapes (Grammar.table dialect) shape classDeclarationRule := by
  have ends : Adds (Grammar.table dialect) (opt [.lineBreak false]) (Heirs 0) := by
    refine heirs_opt (adds_lineBreak.imp ?_)
    rintro nodes rfl
    exact Nat.le_refl 0
  have abstractWords : Adds (Grammar.table dialect) (seq [word "abstract", word "class"]) (Heirs 0) :=
    heirs_cons (adds_word "abstract") (heirs_cons (adds_word "class") heirs_nil)
  have plainWord : Adds (Grammar.table dialect) (word "class") (Heirs 0) := adds_word "class"
  have abstractBody := heirs_cons (adds_classBody dialect) heirs_nil
  have plainBody := heirs_cons (adds_classBody dialect) (heirs_cons ends heirs_nil)
  refine ⟨⟨by decide, shapes_plain rfl, ?_⟩, ⟨by decide, shapes_plain rfl, ?_⟩, trivial⟩
  · intro may s t read _
    have few := heirs_cons (heirs_classHeading dialect abstractWords adds_className) abstractBody
    have titled := titled_here (titled_classHeading dialect abstractWords titled_className) abstractBody
    exact ⟨heirs_inside few read, titled_inside titled read⟩
  · intro may s t read _
    have few := heirs_cons (heirs_classHeading dialect plainWord adds_className) plainBody
    have titled := titled_here (titled_classHeading dialect plainWord titled_className) plainBody
    exact ⟨heirs_inside few read, titled_inside titled read⟩

theorem shapes_classExpression : Shapes (Grammar.table dialect) shape classExpressionRule := by
  have heading := heirs_classHeading dialect (adds_word "class") (heirs_opt adds_className)
  refine ⟨by decide, shapes_plain rfl, ?_⟩
  intro may s t read _
  exact heirs_inside (heirs_cons heading (heirs_cons (adds_classBody dialect) heirs_nil)) read

theorem shapes_interfaceDeclaration : Shapes (Grammar.table dialect) shape interfaceDeclaration := by
  have named := shapes_namedType dialect
  have extension := adds_interfaceExtension dialect
  have clause : Shapes (Grammar.table dialect) shape
      (.node .extendsTypeClause (seq [word "extends", commaList (.role .type namedType)])) := by
    refine ⟨by decide, ?_, fun _ _ _ read _ => extension.inside read⟩
    repeat' first | exact shapes_plain rfl | exact named | exact trivial | refine ⟨?_, ?_⟩
  refine ⟨by decide, ?_, ?_⟩
  · repeat' first | exact shapes_plain rfl | exact clause | exact trivial | refine ⟨?_, ?_⟩
  · intro may s t read _
    have body : Adds (Grammar.table dialect) (.role .body (.node .interfaceBody typeMembers)) (Heirs 0) :=
      heirs_role (heirs_other (adds_node (by decide)) (by decide))
    have heading : Adds (Grammar.table dialect)
        (opt [.node .extendsTypeClause (seq [word "extends", commaList (.role .type namedType)])]) (Heirs 0) :=
      heirs_opt (heirs_other (adds_node (by decide)) (by decide))
    have title : Adds (Grammar.table dialect) (.role .name typeName) Titled := adds_title (by decide)
    have rest := heirs_cons (adds_parameters dialect) (heirs_cons heading (heirs_cons body heirs_nil))
    exact titled_inside (titled_later (adds_word "interface") (titled_here title rest)).lines read

theorem shapes_declaration : Shapes (Grammar.table dialect) shape declarationRule := by
  have interface := shapes_interfaceDeclaration dialect
  repeat' first | exact shapes_plain rfl | exact interface | exact trivial | refine ⟨?_, ?_⟩

theorem table_shapes (symbol : Nonterminal) :
    Shapes (Grammar.table dialect) shape (Grammar.table dialect symbol) := by
  by_cases special : symbol = .classHeritage ∨ symbol = .classDeclaration ∨ symbol = .classExpression ∨
      symbol = .declaration ∨ symbol = .primaryType
  · rcases special with rfl | rfl | rfl | rfl | rfl
    · exact shapes_classHeritage dialect
    · exact shapes_classDeclaration dialect
    · exact shapes_classExpression dialect
    · exact shapes_declaration dialect
    · exact shapes_primaryType dialect
  · exact shapes_plain (table_plain dialect symbol (by simpa only [not_or] using special))

end Grammar

theorem parseTree_kind (parsed : parseTree dialect text = .ok tree) : tree.kind = .program := by
  unfold parseTree at parsed
  dsimp only at parsed
  split at parsed
  · split at parsed
    · cases parsed
      rfl
    · cases parsed
  · cases parsed

theorem parseTree_keeps {shape : Kind → List Node → Prop}
    (grammar : ∀ symbol, Rule.Shapes (Grammar.table dialect) shape (Grammar.table dialect symbol))
    (program : Rule.Shapes (Grammar.table dialect) shape Grammar.programRule) (top : ∀ children, shape .program children)
    (parsed : parseTree dialect text = .ok tree) : tree.Shaped shape := by
  unfold parseTree at parsed
  dsimp only at parsed
  split at parsed
  · rename_i s done
    split at parsed
    · cases parsed
      have read := Rule.run_reads done
      have quiet : (Reader.start text).Quiet := Reader.quiet_arrive _ _ _
      have inner := read.shaped grammar program quiet nofun
      refine .part (by simp [Reader.wrap]) (top _) fun c inside => ?_
      rcases List.mem_append.mp (List.mem_reverse.mp inside) with waiting | old
      · exact .comment (read.quiet quiet c waiting)
      · exact inner c old
    · cases parsed
  · cases parsed

theorem parseTree_shaped (parsed : parseTree dialect text = .ok tree) : tree.Shaped Grammar.shape :=
  parseTree_keeps (Grammar.table_shapes dialect) (Grammar.shapes_plain rfl) (fun _ => trivial) parsed

end ComponentAtlas.Source
