import ComponentAtlas.Proofs.GrammarShapes

namespace ComponentAtlas.Source

def Node.Leaf (n : Node) : Prop := n.children = []

namespace Rule

variable {σ : Type} {table : σ → Rule σ} {s t : Reader}

theorem test_of_mem {test : Rule σ → Bool} {all : List (Rule σ) → Bool}
    (step : ∀ r rs, all (r :: rs) = (test r && all rs)) (good : all rules = true) (member : r ∈ rules) :
    test r = true := by
  induction rules with
  | nil => cases member
  | cons first rest ih =>
    obtain ⟨here, later⟩ := Bool.and_eq_true_iff.mp (step first rest ▸ good)
    rcases List.mem_cons.mp member with rfl | member
    · exact here
    · exact ih later member

mutual
def bare : Rule σ → Bool
  | .token _ _ | .glued _ _ | .ahead _ | .absent _ | .goesOn _ | .lineBreak _ => true
  | .seq rules | .alt rules => bareAll rules
  | .star r | .frame r | .role _ r | .lines _ r => bare r
  | .call _ | .node _ _ | .fold _ _ => false
def bareAll : List (Rule σ) → Bool
  | [] => true
  | r :: rs => bare r && bareAll rs
end

theorem Reads.leaves (read : Reads table may rule s t) (plain : bare rule = true) (quiet : s.Quiet)
    (before : ∀ n ∈ s.out, n.Leaf) : ∀ n ∈ t.out, n.Leaf := by
  have idle {s : Reader} (quiet : s.Quiet) : ∀ n ∈ s.gap, n.Leaf := fun n member => (quiet n member).children
  induction read with
  | token taken =>
    obtain ⟨stop, out, _⟩ := Reader.token_cases taken
    rw [out]
    exact List.forall_mem_cons.mpr ⟨rfl, List.forall_mem_append.mpr ⟨idle quiet, before⟩⟩
  | glued taken =>
    obtain ⟨stop, out, _⟩ := Reader.glued_cases taken
    rw [out]
    exact List.forall_mem_cons.mpr ⟨rfl, before⟩
  | nil | enough | ahead | absent | goesOn => exact before
  | cons first _ one two =>
    obtain ⟨here, later⟩ := Bool.and_eq_true_iff.mp plain
    exact two later (first.quiet quiet) (one here quiet before)
  | again first _ one two => exact two plain (first.quiet quiet) (one plain quiet before)
  | alt member _ ih => exact ih (test_of_mem (fun _ _ => rfl) plain member) quiet before
  | lines _ ih => exact ih plain quiet before
  | call _ _ | node _ _ | fold _ _ => cases plain
  | frame _ ih =>
    exact List.forall_mem_append.mpr ⟨ih plain nofun nofun, List.forall_mem_append.mpr ⟨idle quiet, before⟩⟩
  | role _ ih =>
    refine List.forall_mem_append.mpr ⟨fun n member => ?_, List.forall_mem_append.mpr ⟨idle quiet, before⟩⟩
    obtain ⟨m, inside, rfl⟩ := List.mem_map.mp member
    have leaf := ih plain nofun nofun m inside
    split
    · exact leaf
    · exact leaf
  | lineBreak ends =>
    obtain ⟨taken, out, waiting, _⟩ := Reader.lineBreak?_cases ends
    rw [out]
    exact List.forall_mem_append.mpr ⟨fun n member => idle quiet n (waiting n member), before⟩

-- What is wanted of a node in some role.
inductive Wish where
  | anything
  | token
  | kind (kind : Kind)

namespace Wish

def Met : Wish → Node → Prop
  | anything, _ => True
  | token, n => n.Leaf
  | kind k, n => n.kind = k

def test : Wish → Rule σ → Bool
  | anything, _ => true
  | token, r => bare r
  | kind k, .node made _ => made = k
  | kind _, _ => false

theorem met_of_test {wish : Wish} (good : wish.test r = true) (read : Reads table may r (Reader.enter s) t) :
    ∀ n ∈ t.out, wish.Met n := by
  cases wish with
  | anything => exact fun _ _ => trivial
  | token => exact read.leaves good nofun nofun
  | kind k =>
    cases read with
    | node _ =>
      intro n member
      obtain rfl : n = _ := by simpa [Reader.leave, Reader.enter] using member
      have same : _ = k := of_decide_eq_true good
      exact same
    | _ => cases good

theorem met_withRole {wish : Wish} {n : Node} (met : wish.Met n) (part : Role) : wish.Met (n.withRole part) := by
  cases wish with
  | anything => exact trivial
  | token => exact met
  | kind _ => exact met

end Wish

def Settled (wish : Role → Wish) (n : Node) : Prop := ∀ part ∈ n.role, (wish part).Met n

theorem settled_of_role {wish : Role → Wish} {n : Node} (none : n.role = none) : Settled wish n := by
  simp [Settled, none]

-- Rules that leave such nodes only, if the symbols do that they call.
mutual
def tame (wish : Role → Wish) : Rule σ → Bool
  | .token _ _ | .glued _ _ | .ahead _ | .absent _ | .goesOn _ | .lineBreak _ | .call _ | .node _ _ | .fold _ _ => true
  | .seq rules | .alt rules => tameAll wish rules
  | .star r | .frame r | .lines _ r => tame wish r
  | .role part r => (wish part).test r && tame wish r
def tameAll (wish : Role → Wish) : List (Rule σ) → Bool
  | [] => true
  | r :: rs => tame wish r && tameAll wish rs
end

variable {wish : Role → Wish}

theorem Reads.settled (grammar : ∀ symbol, tame wish (table symbol) = true) (read : Reads table may rule s t)
    (plain : tame wish rule = true) (quiet : s.Quiet) (before : ∀ n ∈ s.out, Settled wish n) :
    ∀ n ∈ t.out, Settled wish n := by
  have idle {s : Reader} (quiet : s.Quiet) : ∀ n ∈ s.gap, Settled wish n := fun n member =>
    settled_of_role (quiet n member).role
  induction read with
  | token taken =>
    obtain ⟨stop, out, _⟩ := Reader.token_cases taken
    rw [out]
    exact List.forall_mem_cons.mpr ⟨settled_of_role rfl, List.forall_mem_append.mpr ⟨idle quiet, before⟩⟩
  | glued taken =>
    obtain ⟨stop, out, _⟩ := Reader.glued_cases taken
    rw [out]
    exact List.forall_mem_cons.mpr ⟨settled_of_role rfl, before⟩
  | nil | enough | ahead | absent | goesOn => exact before
  | cons first _ one two =>
    obtain ⟨here, later⟩ := Bool.and_eq_true_iff.mp plain
    exact two later (first.quiet quiet) (one here quiet before)
  | again first _ one two => exact two plain (first.quiet quiet) (one plain quiet before)
  | alt member _ ih => exact ih (test_of_mem (fun _ _ => rfl) plain member) quiet before
  | call _ ih => exact ih (grammar _) quiet before
  | lines _ ih => exact ih plain quiet before
  | node _ _ =>
    refine List.forall_mem_append.mpr ⟨fun n member => ?_, List.forall_mem_append.mpr ⟨idle quiet, before⟩⟩
    obtain rfl := List.mem_singleton.mp member
    exact settled_of_role rfl
  | fold _ _ =>
    intro n member
    unfold Reader.gather at member
    split at member
    · obtain rfl := List.mem_singleton.mp member
      exact settled_of_role rfl
    · rename_i empty
      simp [List.getLast?_eq_none_iff.mp empty] at member
  | frame _ ih =>
    exact List.forall_mem_append.mpr ⟨ih plain nofun nofun, List.forall_mem_append.mpr ⟨idle quiet, before⟩⟩
  | role read ih =>
    obtain ⟨wanted, inner⟩ := Bool.and_eq_true_iff.mp plain
    refine List.forall_mem_append.mpr ⟨fun n member => ?_, List.forall_mem_append.mpr ⟨idle quiet, before⟩⟩
    obtain ⟨m, inside, rfl⟩ := List.mem_map.mp member
    split
    · exact ih inner nofun nofun m inside
    · intro part own
      cases own
      exact Wish.met_withRole (Wish.met_of_test wanted read m inside) _
  | lineBreak ends =>
    obtain ⟨taken, out, waiting, _⟩ := Reader.lineBreak?_cases ends
    rw [out]
    exact List.forall_mem_append.mpr ⟨fun n member => idle quiet n (waiting n member), before⟩

inductive Demand where
  | nothing
  -- The children are as their roles want them.
  | roles (wish : Role → Wish)
  | tokens

namespace Demand

def isNothing : Demand → Bool
  | nothing => true
  | _ => false

def Met : Demand → List Node → Prop
  | nothing, _ => True
  | roles wish, nodes => ∀ n ∈ nodes, Settled wish n
  | tokens, nodes => ∀ n ∈ nodes, n.Leaf

def test : Demand → Rule σ → Bool
  | nothing, _ => true
  | roles wish, r => tame wish r
  | tokens, r => bare r

theorem met_nil (demand : Demand) : demand.Met [] := by
  cases demand with
  | nothing => exact trivial
  | roles wish => exact nofun
  | tokens => exact nofun

theorem met_of_test (grammar : ∀ wish symbol, tame wish (table symbol) = true) {demand : Demand}
    (good : demand.test r = true) (read : Reads table may r (Reader.enter s) t) : demand.Met t.out.reverse := by
  cases demand with
  | nothing => exact trivial
  | roles wish =>
    intro n member
    exact read.settled (grammar wish) good nofun nofun n (List.mem_reverse.mp member)
  | tokens =>
    intro n member
    exact read.leaves good nofun nofun n (List.mem_reverse.mp member)

end Demand

-- The nodes that a rule makes by itself meet what is asked of their kinds.
mutual
def meets (demand : Kind → Demand) : Rule σ → Bool
  | .token kind _ | .glued kind _ => kind != .comment
  | .seq rules | .alt rules => meetsAll demand rules
  | .star r | .frame r | .role _ r | .lines _ r => meets demand r
  | .node kind r => kind != .comment && (meets demand r && (demand kind).test r)
  | .fold kind r => kind != .comment && (meets demand r && (demand kind).isNothing)
  | .call _ | .ahead _ | .absent _ | .goesOn _ | .lineBreak _ => true
def meetsAll (demand : Kind → Demand) : List (Rule σ) → Bool
  | [] => true
  | r :: rs => meets demand r && meetsAll demand rs
end

theorem Demand.met_of_isNothing {demand : Demand} (free : demand.isNothing = true) (nodes : List Node) :
    demand.Met nodes := by
  cases demand with
  | nothing => exact trivial
  | roles wish => cases free
  | tokens => cases free

mutual
theorem shapes_of_meets (grammar : ∀ wish symbol, tame wish (table symbol) = true) {demand : Kind → Demand} :
    (rule : Rule σ) → meets demand rule = true → Shapes table (fun kind => (demand kind).Met) rule
  | .token kind _, good | .glued kind _, good => ⟨bne_iff_ne.mp good, (demand kind).met_nil⟩
  | .seq rules, good | .alt rules, good => shapesAll_of_meets grammar rules good
  | .star r, good | .frame r, good | .role _ r, good | .lines _ r, good => shapes_of_meets grammar r good
  | .node _ r, good =>
    have both := Bool.and_eq_true_iff.mp good
    have inner := Bool.and_eq_true_iff.mp both.2
    ⟨bne_iff_ne.mp both.1, shapes_of_meets grammar r inner.1, fun _ _ _ read _ => Demand.met_of_test grammar inner.2 read⟩
  | .fold _ r, good =>
    have both := Bool.and_eq_true_iff.mp good
    have inner := Bool.and_eq_true_iff.mp both.2
    ⟨bne_iff_ne.mp both.1, shapes_of_meets grammar r inner.1, Demand.met_of_isNothing inner.2⟩
  | .call _, _ | .ahead _, _ | .absent _, _ | .goesOn _, _ | .lineBreak _, _ => trivial
theorem shapesAll_of_meets (grammar : ∀ wish symbol, tame wish (table symbol) = true) {demand : Kind → Demand} :
    (rules : List (Rule σ)) → meetsAll demand rules = true → ShapesAll table (fun kind => (demand kind).Met) rules
  | [], _ => trivial
  | r :: rs, good =>
    have both := Bool.and_eq_true_iff.mp good
    ⟨shapes_of_meets grammar r both.1, shapesAll_of_meets grammar rs both.2⟩
end

end Rule

namespace Grammar
open Rule

-- The rules of the grammar give roles only inside nodes.
theorem table_tame (dialect : Dialect) (wish : Role → Wish) (symbol : Nonterminal) :
    tame wish (table dialect symbol) = true := by
  cases dialect <;> cases symbol <;> rfl

def nameWish : Role → Wish
  | .name | .otherName | .source => .token
  | _ => .anything

def parameterWish : Role → Wish
  | .name => .token
  | .constraint => .kind .constraint
  | .value => .kind .defaultType
  | _ => .anything

def demand : Kind → Demand
  | .classDeclaration | .abstractClassDeclaration | .classExpression | .interfaceDeclaration | .typeAliasDeclaration
  | .enumDeclaration | .exportStatement | .exportSpecifier | .importStatement | .importSpecifier => .roles nameWish
  | .typeParameter => .roles parameterWish
  | .namespaceExport => .tokens
  | _ => .nothing

theorem table_meets (dialect : Dialect) (symbol : Nonterminal) : meets demand (table dialect symbol) = true := by
  cases dialect <;> cases symbol <;> rfl

end Grammar

theorem parseTree_parts (parsed : parseTree dialect text = .ok tree) :
    tree.Shaped fun kind => (Grammar.demand kind).Met :=
  parseTree_keeps (fun symbol => Rule.shapes_of_meets (Grammar.table_tame dialect) _ (Grammar.table_meets dialect symbol))
    (Rule.shapes_of_meets (Grammar.table_tame dialect) _ rfl) (fun _ => trivial) parsed

end ComponentAtlas.Source
