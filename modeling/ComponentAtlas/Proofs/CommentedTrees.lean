import ComponentAtlas.Proofs.PartShapes
import Mathlib.Data.List.Forall2

namespace ComponentAtlas.Source

-- A comment, without a line feed in it, and the place in a text where it is put.
structure Insertion where
  place : Cursor
  comment : String

namespace Insertion

variable {i : Insertion}

-- A place that the comment comes behind.
def before (i : Insertion) (c : Cursor) : Cursor :=
  let width := i.place.index - c.index
  { c with rest := if width ≤ c.rest.length then c.rest.take width ++ i.comment.toList ++ c.rest.drop width else c.rest }

-- A place that the comment comes in front of.
def behind (i : Insertion) (c : Cursor) : Cursor :=
  { c with
    index := c.index + i.comment.toList.length
    column := if c.line = i.place.line then c.column + i.comment.utf8ByteSize else c.column }

-- What starts at the place starts behind the comment, and what stops there stops in front of it.
def start (i : Insertion) (c : Cursor) : Cursor := if c.index < i.place.index then i.before c else i.behind c
def stop (i : Insertion) (c : Cursor) : Cursor := if c.index ≤ i.place.index then i.before c else i.behind c

def node (i : Insertion) : Node :=
  { kind := .comment, role := none, start := i.stop i.place, stop := i.start i.place, children := [] }

theorem idle_node (i : Insertion) : i.node.Idle := ⟨rfl, rfl, rfl⟩

structure Spans (i : Insertion) (n : Node) : Prop where
  behind : n.start.index < i.place.index
  ahead : i.place.index < n.stop.index
  within : i.place.index - n.start.index ≤ n.start.rest.length

end Insertion

mutual
def Node.moved (i : Insertion) : Node → Node
  | ⟨kind, role, start, stop, children⟩ => ⟨kind, role, i.start start, i.stop stop, movedAll i children⟩
def movedAll (i : Insertion) : List Node → List Node
  | [] => []
  | n :: rest => n.moved i :: movedAll i rest
end

namespace Node

variable {i : Insertion} {n : Node}

theorem movedAll_eq (i : Insertion) (nodes : List Node) : movedAll i nodes = nodes.map (moved i) := by
  induction nodes with
  | nil => rfl
  | cons n rest ih => rw [movedAll, ih, List.map_cons]

@[simp] theorem moved_kind (i : Insertion) (n : Node) : (n.moved i).kind = n.kind := by
  obtain ⟨kind, role, start, stop, children⟩ := n
  rw [moved]

@[simp] theorem moved_role (i : Insertion) (n : Node) : (n.moved i).role = n.role := by
  obtain ⟨kind, role, start, stop, children⟩ := n
  rw [moved]

@[simp] theorem moved_start (i : Insertion) (n : Node) : (n.moved i).start = i.start n.start := by
  obtain ⟨kind, role, start, stop, children⟩ := n
  rw [moved]

@[simp] theorem moved_stop (i : Insertion) (n : Node) : (n.moved i).stop = i.stop n.stop := by
  obtain ⟨kind, role, start, stop, children⟩ := n
  rw [moved]

@[simp] theorem moved_children (i : Insertion) (n : Node) : (n.moved i).children = n.children.map (moved i) := by
  obtain ⟨kind, role, start, stop, children⟩ := n
  rw [moved, movedAll_eq]

theorem text_moved_kept (outside : ¬i.Spans n) : (n.moved i).text = n.text := by
  rw [text, text, Cursor.upTo, Cursor.upTo, moved_start, moved_stop]
  by_cases early : n.start.index < i.place.index
  · rw [Insertion.start, if_pos early]
    by_cases closed : n.stop.index ≤ i.place.index
    · rw [Insertion.stop, if_pos closed]
      dsimp only [Insertion.before]
      split
      · rename_i within
        rw [List.append_assoc, List.take_append_of_le_length, List.take_take]
        · congr 2
          omega
        · rw [List.length_take]
          omega
      · rfl
    · -- The node goes on behind the place, so its text must have ended before.
      have short : n.start.rest.length < i.place.index - n.start.index := by
        by_contra within
        exact outside ⟨early, by omega, by omega⟩
      rw [Insertion.stop, if_neg closed]
      dsimp only [Insertion.before, Insertion.behind]
      rw [if_neg (by omega), List.take_of_length_le (by omega), List.take_of_length_le (by omega)]
  · rw [Insertion.start, if_neg early, Insertion.stop]
    split
    · have empty : n.stop.index - n.start.index = 0 := by omega
      have still : n.stop.index - (n.start.index + i.comment.toList.length) = 0 := by omega
      dsimp only [Insertion.before, Insertion.behind]
      rw [empty, still]
    · dsimp only [Insertion.behind]
      rw [Nat.add_sub_add_right]

theorem text_moved_spliced (inside : i.Spans n) :
    ∃ u v, n.text = u ++ v ∧ (n.moved i).text = u ++ i.comment ++ v := by
  obtain ⟨early, ahead, within⟩ := inside
  have front : (n.start.rest.take (i.place.index - n.start.index)).length = i.place.index - n.start.index :=
    List.length_take_of_le within
  have rest := List.take_append_drop (i.place.index - n.start.index) n.start.rest
  have moved : (n.moved i).text = String.ofList ((i.before n.start).rest.take
      (n.stop.index + i.comment.toList.length - n.start.index)) := by
    rw [text, Cursor.upTo, moved_start, moved_stop, Insertion.start, if_pos early, Insertion.stop,
      if_neg (Nat.not_le.mpr ahead)]
    rfl
  have spliced : (i.before n.start).rest = n.start.rest.take (i.place.index - n.start.index) ++
      (i.comment.toList ++ n.start.rest.drop (i.place.index - n.start.index)) := by
    rw [← List.append_assoc]
    exact if_pos within
  generalize n.start.rest.take (i.place.index - n.start.index) = u,
    n.start.rest.drop (i.place.index - n.start.index) = v at front rest spliced
  have short : n.stop.index - n.start.index = u.length + (n.stop.index - i.place.index) := by omega
  have long : n.stop.index + i.comment.toList.length - n.start.index =
      u.length + (i.comment.toList.length + (n.stop.index - i.place.index)) := by omega
  refine ⟨String.ofList u, String.ofList (v.take (n.stop.index - i.place.index)), ?_, ?_⟩
  · rw [text, Cursor.upTo, ← rest, short, List.take_length_add_append, String.ofList_append]
  · rw [moved, spliced, long, List.take_length_add_append, List.take_length_add_append, String.ofList_append,
      String.ofList_append, String.ofList_toList, String.append_assoc]

end Node

-- What a node has when its children have it, every node has.
@[elab_as_elim]
theorem Node.induction_children {motive : Node → Prop} (parent : ∀ n : Node, (∀ c ∈ n.children, motive c) → motive n) :
    ∀ n, motive n
  | ⟨kind, role, start, stop, children⟩ =>
    parent ⟨kind, role, start, stop, children⟩ fun c _ => Node.induction_children parent c

inductive Node.Has : Node → Node → Prop where
  | here : Node.Has n n
  | inside (child : c ∈ n.children) (has : Node.Has c m) : Node.Has n m

theorem Node.Has.child {n m c : Node} (has : n.Has m) (child : c ∈ m.children) : n.Has c := by
  induction has with
  | here => exact .inside child .here
  | inside outer _ ih => exact .inside outer (ih child)

-- The children of a node before and after. Comments go between two children, where `fits` allows it: it is given the kind
-- of the node, the children in front of the comment and those behind it.
inductive Interspersed (same : Node → Node → Prop) (comment : Node) (fits : Kind → List Node → List Node → Bool) :
    Kind → List Node → List Node → List Node → Prop where
  | nil : Interspersed same comment fits kind front [] []
  | both (head : same a b) (rest : Interspersed same comment fits kind (front ++ [a]) as bs) :
      Interspersed same comment fits kind front (a :: as) (b :: bs)
  | comment (behind : front ≠ []) (ahead : as ≠ []) (here : fits kind front as = true)
      (rest : Interspersed same comment fits kind front as bs) :
      Interspersed same comment fits kind front as (comment :: bs)

inductive Node.Commented (i : Insertion) (fits : Kind → List Node → List Node → Bool) : Node → Node → Prop where
  | intro (kind : n'.kind = n.kind) (role : n'.role = n.role) (start : n'.start = i.start n.start)
      (stop : n'.stop = i.stop n.stop)
      (children : Interspersed (Node.Commented i fits) i.node fits n.kind [] n.children n'.children) :
      Node.Commented i fits n n'

namespace Interspersed

variable {same other : Node → Node → Prop} {comment : Node} {fits : Kind → List Node → List Node → Bool}
  {kind : Kind} {front as bs : List Node}

theorem imp_mem (all : Interspersed same comment fits kind front as bs)
    (weaker : ∀ a ∈ as, ∀ b ∈ bs, same a b → other a b) : Interspersed other comment fits kind front as bs := by
  induction all with
  | nil => exact .nil
  | both head _ ih =>
    refine .both (weaker _ List.mem_cons_self _ List.mem_cons_self head) (ih fun a inside b member => ?_)
    exact weaker a (List.mem_cons_of_mem _ inside) b (List.mem_cons_of_mem _ member)
  | comment behind ahead here _ ih =>
    exact .comment behind ahead here (ih fun a inside b member => weaker a inside b (List.mem_cons_of_mem _ member))

theorem map {f : Node → Node} (all : Interspersed same comment fits kind front as bs)
    (steady : ∀ front as, fits kind (front.map f) (as.map f) = fits kind front as)
    (weaker : ∀ a b, same a b → other (f a) b) :
    Interspersed other comment fits kind (front.map f) (as.map f) bs := by
  induction all with
  | nil => exact .nil
  | both head _ ih =>
    refine .both (weaker _ _ head) ?_
    simpa using ih steady
  | comment behind ahead here _ ih =>
    exact .comment (by simpa using behind) (by simpa using ahead) ((steady _ _).trans here) (ih steady)

theorem filter {f : Node → Bool} (all : Interspersed same comment fits kind front as bs)
    (agrees : ∀ a b, same a b → f b = f a) (skips : f comment = false) :
    List.Forall₂ same (as.filter f) (bs.filter f) := by
  induction all with
  | nil => exact .nil
  | @both a b _ _ _ _ head _ ih =>
    have alike := agrees a b head
    cases keep : f a with
    | true => simpa [keep, alike] using ⟨head, ih⟩
    | false => simpa [keep, alike] using ih
  | comment _ _ _ _ ih => simpa [skips] using ih

-- Where a comment goes only behind something named, the first that is named stays the first.
theorem first_named (all : Interspersed same comment fits kind front as bs)
    (kinds : ∀ a b, same a b → b.kind = a.kind)
    (guarded : ∀ front as, fits kind front as = true → ∃ n ∈ front, n.kind.isNamed = true)
    (unnamed : ∀ n ∈ front, n.kind.isNamed = false) :
    Option.Rel same (as.filter (·.kind.isNamed)).head? (bs.filter (·.kind.isNamed)).head? := by
  induction all with
  | nil => exact .none
  | @both a b _ front _ _ head _ ih =>
    have alike := kinds a b head
    cases named : a.kind.isNamed with
    | true => simpa [named, alike] using head
    | false =>
      have still : ∀ n ∈ front ++ [a], n.kind.isNamed = false :=
        List.forall_mem_append.mpr ⟨unnamed, by simpa using named⟩
      simpa [named, alike] using ih guarded still
  | comment _ _ here _ _ =>
    obtain ⟨n, member, named⟩ := guarded _ _ here
    simp [unnamed n member] at named

theorem forall₂ (all : Interspersed same comment fits kind front as bs)
    (never : ∀ front as, fits kind front as = false) : List.Forall₂ same as bs := by
  induction all with
  | nil => exact .nil
  | both head _ ih => exact .cons head (ih never)
  | comment _ _ here _ _ => simp [never] at here

theorem nil_left (all : Interspersed same comment fits kind front as []) : as = [] := by
  cases all
  rfl

end Interspersed

-- What is told of the text of a node: it stays, unless the place is inside the node.
def Insertion.Told (i : Insertion) (tree : Node) (before after : String) : Prop :=
  ∃ n, tree.Has n ∧ before = n.text ∧
    (¬i.Spans n ∧ after = before ∨ i.Spans n ∧ ∃ u v, before = u ++ v ∧ after = u ++ i.comment ++ v)

theorem Insertion.told_moved {i : Insertion} (inside : tree.Has n) : i.Told tree n.text (n.moved i).text := by
  refine ⟨n, inside, rfl, ?_⟩
  by_cases spans : i.Spans n
  · exact .inr ⟨spans, Node.text_moved_spliced spans⟩
  · exact .inl ⟨spans, Node.text_moved_kept spans⟩

def Insertion.Between (i : Insertion) (tree : Node) : Prop :=
  ∀ n, tree.Has n → n.Leaf → ¬i.Spans n

mutual
def Node.isCommented (i : Insertion) (fits : Kind → List Node → List Node → Bool) (n : Node) : Node → Bool
  | ⟨kind, role, start, stop, children⟩ =>
    kind = n.kind && (role = n.role && (start = i.start n.start && (stop = i.stop n.stop &&
      isInterspersed i fits n.kind [] n.children children)))
def isInterspersed (i : Insertion) (fits : Kind → List Node → List Node → Bool) (kind : Kind) :
    List Node → List Node → List Node → Bool
  | _, as, [] => as.isEmpty
  | front, as, c :: bs =>
    (match as with
      | [] => false
      | a :: rest => a.isCommented i fits c && isInterspersed i fits kind (front ++ [a]) rest bs) ||
    (c.kind = i.node.kind && (c.role = i.node.role && (c.start = i.node.start && (c.stop = i.node.stop &&
      (c.children.isEmpty && (!front.isEmpty && (!as.isEmpty && (fits kind front as &&
        isInterspersed i fits kind front as bs))))))))
end
mutual
theorem Node.commented_of_isCommented {i : Insertion} {fits : Kind → List Node → List Node → Bool} {n : Node} :
    (n' : Node) → n.isCommented i fits n' = true → n.Commented i fits n'
  | ⟨kind, role, start, stop, children⟩, test => by
    simp only [Node.isCommented, Bool.and_eq_true, decide_eq_true_eq] at test
    obtain ⟨kind, role, start, stop, children⟩ := test
    exact .intro kind role start stop (interspersed_of_isInterspersed _ children)
theorem interspersed_of_isInterspersed {i : Insertion} {fits : Kind → List Node → List Node → Bool} {kind : Kind}
    {front as : List Node} : (bs : List Node) → isInterspersed i fits kind front as bs = true →
      Interspersed (Node.Commented i fits) i.node fits kind front as bs
  | [], test => by
    obtain rfl := List.isEmpty_iff.mp test
    exact .nil
  | c :: bs, test => by
    simp only [isInterspersed, Bool.and_eq_true, Bool.or_eq_true, decide_eq_true_eq] at test
    rcases test with both | ⟨same, role, start, stop, bare, behind, ahead, here, rest⟩
    · cases as with
      | nil => cases both
      | cons a rest =>
        obtain ⟨head, rest⟩ := Bool.and_eq_true_iff.mp both
        exact .both (Node.commented_of_isCommented _ head) (interspersed_of_isInterspersed _ rest)
    · obtain rfl : c = i.node := by
        obtain ⟨_, _, _, _, children⟩ := c
        obtain rfl := List.isEmpty_iff.mp bare
        rw [Insertion.node, Node.mk.injEq]
        exact ⟨same, role, start, stop, rfl⟩
      refine .comment ?_ ?_ here (interspersed_of_isInterspersed _ rest)
      · rintro rfl
        cases behind
      · rintro rfl
        cases ahead
end

mutual
def Node.isSpared (i : Insertion) : Node → Bool
  | ⟨_, _, start, stop, children⟩ =>
    if children.isEmpty then !(start.index < i.place.index && i.place.index < stop.index) else areSpared i children
def areSpared (i : Insertion) : List Node → Bool
  | [] => true
  | n :: rest => n.isSpared i && areSpared i rest
end

theorem Node.areSpared_eq (i : Insertion) (nodes : List Node) : areSpared i nodes = nodes.all (isSpared i) := by
  induction nodes with
  | nil => rfl
  | cons n rest ih => rw [areSpared, ih, List.all_cons]

theorem Insertion.between_of_isSpared {i : Insertion} (good : tree.isSpared i = true) : i.Between tree := by
  intro n inside leaf spans
  induction inside with
  | @here n =>
    obtain ⟨_, _, start, stop, children⟩ := n
    obtain rfl : children = [] := leaf
    simp [Node.isSpared, spans.behind, spans.ahead] at good
  | @inside c m n child _ ih =>
    obtain ⟨_, _, start, stop, children⟩ := n
    have inner : children.isEmpty = false := List.isEmpty_eq_false_iff_exists_mem.mpr ⟨c, child⟩
    simp only [Node.isSpared, inner, Node.areSpared_eq] at good
    exact ih (List.all_eq_true.mp good c child) leaf spans

end ComponentAtlas.Source
