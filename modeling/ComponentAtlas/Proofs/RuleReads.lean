import ComponentAtlas.Source.Rule

namespace ComponentAtlas.Source

namespace Rule

variable {σ : Type} {table : σ → Rule σ}

-- The steps of a run that succeeds: what was tried in vain leaves no trace.
inductive Reads (table : σ → Rule σ) : Bool → Rule σ → Reader → Reader → Prop where
  | token (taken : s.token kind scan = some t) : Reads table may (.token kind scan) s t
  | glued (taken : s.glued kind scan = some t) : Reads table may (.glued kind scan) s t
  | nil : Reads table may (.seq []) s s
  | cons (first : Reads table may r s m) (rest : Reads table may (.seq rs) m t) : Reads table may (.seq (r :: rs)) s t
  | alt (member : r ∈ rs) (read : Reads table may r s t) : Reads table may (.alt rs) s t
  | enough : Reads table may (.star r) s s
  | again (first : Reads table may r s m) (rest : Reads table may (.star r) m t) : Reads table may (.star r) s t
  | call (read : Reads table may (table symbol) s t) : Reads table may (.call symbol) s t
  | node (read : Reads table may r s.enter t) : Reads table may (.node kind r) s (t.leave s [t.wrap kind s.next])
  | frame (read : Reads table may r s.enter t) : Reads table may (.frame r) s (t.leave s t.out)
  | fold (read : Reads table may r s t) : Reads table may (.fold kind r) s (t.gather kind)
  | role (read : Reads table may r s.enter t) :
      Reads table may (.role part r) s (t.leave s (t.out.map fun n => if n.isComment then n else n.withRole part))
  | lines (read : Reads table within r s t) : Reads table may (.lines within r) s t
  | ahead : Reads table may (.ahead r) s s
  | absent : Reads table may (.absent r) s s
  | goesOn : Reads table may (.goesOn afterValue) s s
  | lineBreak (ends : s.lineBreak? afterValue = some t) : Reads table may (.lineBreak afterValue) s t

theorem run_reads (done : run table fuel may rule s = some t) : Reads table may rule s t := by
  induction fuel generalizing may rule s t with
  | zero => simp [run] at done
  | succ fuel ih =>
    cases rule with
    | token kind scan => exact .token (by simpa [run] using done)
    | glued kind scan => exact .glued (by simpa [run] using done)
    | seq rules =>
      cases rules with
      | nil =>
        obtain rfl : s = t := by simpa [run] using done
        exact .nil
      | cons r rs =>
        simp only [run] at done
        split at done
        · rename_i m first
          exact .cons (ih first) (ih done)
        · cases done
    | alt rules =>
      cases rules with
      | nil => simp [run] at done
      | cons r rs =>
        simp only [run] at done
        split at done
        · rename_i m first
          cases done
          exact .alt List.mem_cons_self (ih first)
        · cases ih done with
          | alt member read => exact .alt (List.mem_cons_of_mem r member) read
    | star r =>
      simp only [run] at done
      split at done
      · rename_i m first
        split at done
        · exact .again (ih first) (ih done)
        · cases done
          exact .enough
      · cases done
        exact .enough
    | call symbol => exact .call (ih (by simpa [run] using done))
    | node kind r =>
      simp only [run] at done
      split at done
      · rename_i m read
        cases done
        exact .node (ih read)
      · cases done
    | frame r =>
      simp only [run] at done
      split at done
      · rename_i m read
        cases done
        exact .frame (ih read)
      · cases done
    | fold kind r =>
      obtain ⟨m, read, rfl⟩ := Option.map_eq_some_iff.mp (by simpa only [run] using done)
      exact .fold (ih read)
    | role part r =>
      simp only [run] at done
      split at done
      · rename_i m read
        cases done
        exact .role (ih read)
      · cases done
    | lines inner r => exact .lines (ih (by simpa only [run] using done))
    | ahead r =>
      simp only [run] at done
      split at done
      · cases done
        exact .ahead
      · cases done
    | absent r =>
      simp only [run] at done
      split at done
      · cases done
      · cases done
        exact .absent
    | goesOn afterValue =>
      simp only [run] at done
      split at done
      · cases done
      · cases done
        exact .goesOn
    | lineBreak afterValue => exact .lineBreak (by simpa only [run] using done)

end Rule

-- A comment as the reader leaves it: it plays no part in its parent, and nothing is inside.
structure Node.Idle (n : Node) : Prop where
  comment : n.kind = .comment
  role : n.role = none
  children : n.children = []

namespace Reader

variable {s t : Reader}

-- Only comments wait for the next token.
def Quiet (s : Reader) : Prop := ∀ n ∈ s.gap, n.Idle

theorem skipGap_idle {waiting : List Node} (before : ∀ n ∈ waiting, n.Idle) :
    ∀ n ∈ (skipGap fuel waiting c).1, n.Idle := by
  induction fuel generalizing waiting c with
  | zero => exact before
  | succ fuel ih =>
    rw [skipGap]
    dsimp only
    split
    · refine ih fun n member => ?_
      rcases List.mem_cons.mp member with rfl | old
      · exact ⟨rfl, rfl, rfl⟩
      · exact before n old
    · exact before

theorem quiet_arrive (size : Nat) (here : Cursor) (out : List Node) : (arrive size here out).Quiet := by
  have none : ∀ n ∈ ([] : List Node), n.Idle := nofun
  change ∀ n ∈ (skipGap (size + 1) [] here).1, n.Idle
  exact skipGap_idle none

theorem token_cases (taken : s.token kind scan = some t) :
    ∃ stop, t.out = leaf kind s.next stop :: (s.gap ++ s.out) ∧ t.Quiet := by
  unfold token at taken
  split at taken
  · cases taken
    exact ⟨_, rfl, quiet_arrive _ _ _⟩
  · cases taken

theorem glued_cases (taken : s.glued kind scan = some t) :
    ∃ stop, t.out = leaf kind s.here stop :: s.out ∧ t.Quiet := by
  unfold glued at taken
  split at taken
  · cases taken
    exact ⟨_, rfl, quiet_arrive _ _ _⟩
  · cases taken

-- A line end takes some of the waiting comments and leaves the others.
theorem lineBreak?_cases (ends : s.lineBreak? afterValue = some t) :
    ∃ taken, t.out = taken ++ s.out ∧ (∀ n ∈ taken, n ∈ s.gap) ∧ ∀ n ∈ t.gap, n ∈ s.gap := by
  have walk : ∀ (waiting : List Node) (s : Reader), lineBreak?.go afterValue waiting s = some t →
      ∃ taken, t.out = taken ++ s.out ∧ (∀ n ∈ taken, n ∈ waiting) ∧ ∀ n ∈ t.gap, n ∈ waiting := by
    intro waiting
    induction waiting with
    | nil =>
      intro s ends
      simp only [lineBreak?.go] at ends
      split at ends
      · cases ends
        exact ⟨[], rfl, nofun, nofun⟩
      · cases ends
    | cons c later ih =>
      intro s ends
      simp only [lineBreak?.go] at ends
      split at ends
      · cases ends
        refine ⟨[], rfl, nofun, ?_⟩
        intro n member
        exact List.mem_reverse.mp member
      · obtain ⟨taken, out, inside, left⟩ := ih _ ends
        refine ⟨taken ++ [c], by simpa using out, ?_, fun n member => List.mem_cons_of_mem c (left n member)⟩
        intro n member
        rcases List.mem_append.mp member with early | last
        · exact List.mem_cons_of_mem c (inside n early)
        · exact List.mem_singleton.mp last ▸ List.mem_cons_self
  obtain ⟨taken, out, inside, left⟩ := walk _ _ ends
  exact ⟨taken, out, fun n member => List.mem_reverse.mp (inside n member),
    fun n member => List.mem_reverse.mp (left n member)⟩

theorem gather_cases (s : Reader) (kind : Kind) (first : s.out ≠ []) :
    ∃ start, (s.gather kind).out = [s.wrap kind start] := by
  unfold gather
  cases last : s.out.getLast? with
  | none => exact absurd (List.getLast?_eq_none_iff.mp last) first
  | some first => exact ⟨_, rfl⟩

@[simp] theorem gather_gap (s : Reader) (kind : Kind) : (s.gather kind).gap = s.gap := by
  unfold gather
  split <;> rfl

end Reader

namespace Rule

variable {σ : Type} {table : σ → Rule σ} {s t : Reader}

theorem Reads.quiet (read : Reads table may rule s t) (before : s.Quiet) : t.Quiet := by
  induction read with
  | token taken =>
    obtain ⟨_, _, quiet⟩ := Reader.token_cases taken
    exact quiet
  | glued taken =>
    obtain ⟨_, _, quiet⟩ := Reader.glued_cases taken
    exact quiet
  | nil | enough | ahead | absent | goesOn => exact before
  | cons _ _ first rest | again _ _ first rest => exact rest (first before)
  | alt _ _ ih | call _ ih | lines _ ih => exact ih before
  | node _ ih | frame _ ih | role _ ih => exact ih nofun
  | fold _ ih =>
    intro n member
    rw [Reader.gather_gap] at member
    exact ih before n member
  | lineBreak ends =>
    obtain ⟨_, _, _, left⟩ := Reader.lineBreak?_cases ends
    intro n member
    exact before n (left n member)

theorem Reads.out_ne_nil (read : Reads table may rule s t) (before : s.out ≠ []) : t.out ≠ [] := by
  induction read with
  | token taken =>
    obtain ⟨_, out, _⟩ := Reader.token_cases taken
    simp [out]
  | glued taken =>
    obtain ⟨_, out, _⟩ := Reader.glued_cases taken
    simp [out]
  | nil | enough | ahead | absent | goesOn => exact before
  | cons _ _ first rest | again _ _ first rest => exact rest (first before)
  | alt _ _ ih | call _ ih | lines _ ih => exact ih before
  | node _ _ => simp [Reader.leave]
  | frame _ _ | role _ _ => simp [Reader.leave, before]
  | @fold _ _ _ t kind _ ih =>
    obtain ⟨start, out⟩ := t.gather_cases kind (ih before)
    simp [out]
  | lineBreak ends =>
    obtain ⟨taken, out, _, _⟩ := Reader.lineBreak?_cases ends
    simp [out, before]

-- What is known of the nodes that a rule has left.
inductive Yield where
  | never
  | nothing
  | one
  | unknown
deriving DecidableEq

namespace Yield

def join : Yield → Yield → Yield
  | never, y => y
  | x, never => x
  | x, y => if x = y then x else unknown

def more : Yield → Yield
  | never => never
  | nothing => one
  | one | unknown => unknown

end Yield

def isPart (kind : Kind) : Bool := kind.isNamed && kind != .comment

-- What a rule leaves behind what was there, if the symbols in `single` leave one node each. In a list of its own, which
-- `fresh` stands for, a fold leaves one node whatever it gathers.
mutual
def yields (single : σ → Bool) (fresh : Bool) : Rule σ → Yield → Yield
  | .token kind _, y => if isPart kind then y.more else .unknown
  | .glued _ _, _ => .unknown
  | .seq rules, y => yieldsSeq single fresh rules y
  | .alt rules, y => yieldsAlt single fresh rules y
  | .star r, y => let z := yields single fresh r y; if z = y || z = .never then y else .unknown
  | .call symbol, y => if single symbol then y.more else .unknown
  | .node kind _, y => if isPart kind then y.more else .unknown
  | .frame r, y => if yields single true r .nothing = .one then y.more else .unknown
  | .fold kind _, y => if fresh && y = .one && isPart kind then .one else .unknown
  | .role _ r, y => if yields single true r .nothing = .one then y.more else .unknown
  | .lines _ r, y => yields single fresh r y
  | .ahead _, y | .absent _, y | .goesOn _, y => y
  | .lineBreak _, _ => .unknown
def yieldsSeq (single : σ → Bool) (fresh : Bool) : List (Rule σ) → Yield → Yield
  | [], y => y
  | r :: rs, y => yieldsSeq single fresh rs (yields single fresh r y)
def yieldsAlt (single : σ → Bool) (fresh : Bool) : List (Rule σ) → Yield → Yield
  | [], _ => .never
  | r :: rs, y => (yields single fresh r y).join (yieldsAlt single fresh rs y)
end

-- The reader has these nodes more than `base`.
def Left (base : Reader) : Yield → Reader → Prop
  | .never, _ => False
  | .nothing, s => s.out = base.out ∧ s.gap = base.gap
  | .one, s => ∃ n, isPart n.kind = true ∧ s.out = n :: (base.gap ++ base.out)
  | .unknown, _ => True

theorem Left.join_left (left : Left base x s) (y : Yield) : Left base (x.join y) s := by
  cases x with
  | never => exact left.elim
  | nothing | one | unknown =>
    cases y with
    | never => exact left
    | nothing | one | unknown => first | exact left | exact trivial

theorem Left.join_right (x : Yield) (left : Left base y s) : Left base (x.join y) s := by
  cases x with
  | never => exact left
  | nothing | one | unknown =>
    cases y with
    | never => exact left.elim
    | nothing | one | unknown => first | exact left | exact trivial

theorem Left.alt (member : r ∈ rs) (left : Left base (yields single fresh r y) t) :
    Left base (yieldsAlt single fresh rs y) t := by
  induction rs with
  | nil => cases member
  | cons first rest ih =>
    rw [yieldsAlt]
    rcases List.mem_cons.mp member with rfl | later
    · exact left.join_left _
    · exact (ih later).join_right _

theorem Left.more (left : Left base y s) (part : isPart n.kind = true) (out : t.out = n :: (s.gap ++ s.out)) :
    Left base y.more t := by
  cases y with
  | never => exact left.elim
  | nothing =>
    obtain ⟨same, waiting⟩ := left
    exact ⟨n, part, by rw [out, same, waiting]⟩
  | one | unknown => exact trivial

variable {single : σ → Bool}

theorem Reads.left (sound : ∀ symbol, single symbol = true →
      yields single false (table symbol) .nothing = .one ∨ yields single false (table symbol) .nothing = .never)
    (read : Reads table may rule s t) {base : Reader} {fresh : Bool} {y : Yield}
    (own : fresh = true → base.out = [] ∧ base.gap = []) (before : Left base y s) :
    Left base (yields single fresh rule y) t := by
  induction read generalizing base fresh y with
  | token taken =>
    obtain ⟨stop, out, _⟩ := Reader.token_cases taken
    rw [yields]
    split
    · rename_i part
      exact before.more part out
    · exact trivial
  | glued _ => exact trivial
  | nil => exact before
  | cons _ _ first rest => exact rest own (first own before)
  | alt member _ ih => exact (ih own before).alt member
  | enough =>
    rw [yields]
    split
    · exact before
    · exact trivial
  | again _ _ first rest =>
    have once := first own before
    rw [yields]
    split
    · rename_i stays
      rcases Bool.or_eq_true _ _ ▸ stays with same | never
      · rw [of_decide_eq_true same] at once
        have all := rest own once
        rwa [yields, if_pos stays] at all
      · rw [of_decide_eq_true never] at once
        exact once.elim
    · exact trivial
  | @call _ symbol s t _ ih =>
    rw [yields]
    split
    · rename_i known
      have alone : Left s (yields single false (table symbol) .nothing) t := ih nofun ⟨rfl, rfl⟩
      rcases sound symbol known with one | never
      · rw [one] at alone
        obtain ⟨n, part, out⟩ := alone
        exact before.more part out
      · rw [never] at alone
        exact alone.elim
    · exact trivial
  | node _ _ =>
    rw [yields]
    split
    · rename_i part
      exact before.more part rfl
    · exact trivial
  | frame _ ih =>
    have alone := @ih (Reader.enter _) true .nothing (fun _ => ⟨rfl, rfl⟩) ⟨rfl, rfl⟩
    rw [yields]
    split
    · rename_i framed
      rw [framed] at alone
      obtain ⟨n, part, out⟩ := alone
      refine before.more part ?_
      rw [Reader.leave, out]
      rfl
    · exact trivial
  | role _ ih =>
    rename_i place _ _
    have alone := @ih (Reader.enter _) true .nothing (fun _ => ⟨rfl, rfl⟩) ⟨rfl, rfl⟩
    rw [yields]
    split
    · rename_i framed
      rw [framed] at alone
      obtain ⟨n, part, out⟩ := alone
      have named : n.isComment = false := by
        simp [isPart] at part
        simp [Node.isComment, part.2]
      refine before.more (n := n.withRole place) part ?_
      rw [Reader.leave, out]
      simp [named, Reader.enter]
    · exact trivial
  | @fold _ r s t kind read _ =>
    rw [yields]
    split
    · rename_i framed
      obtain ⟨⟨isFresh, isOne⟩, part⟩ : (fresh = true ∧ y = .one) ∧ isPart kind = true := by simpa using framed
      subst isOne
      obtain ⟨n, _, out⟩ := before
      obtain ⟨none, idle⟩ := own isFresh
      obtain ⟨start, gathered⟩ := t.gather_cases kind (read.out_ne_nil (by simp [out]))
      exact ⟨_, part, by rw [gathered, none, idle]; rfl⟩
    · exact trivial
  | lines _ ih => exact ih own before
  | ahead | absent | goesOn => exact before
  | lineBreak _ => exact trivial

end Rule

-- Throughout the tree, children are as `shape` wants them for the kind of their parent.
inductive Node.Shaped (shape : Kind → List Node → Prop) : Node → Prop where
  | comment (idle : n.Idle) : Node.Shaped shape n
  | part (named : n.kind ≠ .comment) (here : shape n.kind n.children)
      (below : ∀ c ∈ n.children, Node.Shaped shape c) : Node.Shaped shape n

namespace Node.Shaped

variable {shape : Kind → List Node → Prop} {n : Node}

theorem idle (shaped : n.Shaped shape) (comment : n.isComment = true) : n.Idle := by
  cases shaped with
  | comment idle => exact idle
  | part named _ _ => exact absurd (of_decide_eq_true comment) named

theorem here (shaped : n.Shaped shape) (named : n.kind ≠ .comment) : shape n.kind n.children := by
  cases shaped with
  | comment idle => exact absurd idle.comment named
  | part _ here _ => exact here

theorem inside (shaped : n.Shaped shape) : ∀ c ∈ n.children, c.Shaped shape := by
  cases shaped with
  | comment idle => simp [idle.children]
  | part _ _ below => exact below

theorem withRole (shaped : n.Shaped shape) (named : n.isComment = false) (part : Role) :
    (n.withRole part).Shaped shape := by
  have kind : n.kind ≠ .comment := of_decide_eq_false named
  exact .part kind (shaped.here kind) shaped.inside

end Node.Shaped

namespace Rule

variable {σ : Type} {table : σ → Rule σ} {shape : Kind → List Node → Prop} {s t : Reader}

-- The nodes that a rule makes by itself have the shape of their kind.
mutual
def Shapes (table : σ → Rule σ) (shape : Kind → List Node → Prop) : Rule σ → Prop
  | .token kind _ | .glued kind _ => kind ≠ .comment ∧ shape kind []
  | .seq rules | .alt rules => ShapesAll table shape rules
  | .star r | .frame r | .role _ r | .lines _ r => Shapes table shape r
  | .node kind r => kind ≠ .comment ∧ Shapes table shape r ∧
      ∀ may s t, Reads table may r (Reader.enter s) t → (∀ n ∈ t.out, n.Shaped shape) → shape kind t.out.reverse
  | .fold kind r => kind ≠ .comment ∧ Shapes table shape r ∧ ∀ children, shape kind children
  | .call _ | .ahead _ | .absent _ | .goesOn _ | .lineBreak _ => True
def ShapesAll (table : σ → Rule σ) (shape : Kind → List Node → Prop) : List (Rule σ) → Prop
  | [] => True
  | r :: rs => Shapes table shape r ∧ ShapesAll table shape rs
end

theorem ShapesAll.member (all : ShapesAll table shape rs) (member : r ∈ rs) : Shapes table shape r := by
  induction rs with
  | nil => cases member
  | cons first rest ih =>
    rcases List.mem_cons.mp member with rfl | later
    · exact all.1
    · exact ih all.2 later

-- The kinds of the tokens of a rule, and those of the other nodes that it makes, pass a test.
mutual
def made (token node : Kind → Bool) : Rule σ → Bool
  | .token kind _ | .glued kind _ => token kind
  | .seq rules | .alt rules => madeAll token node rules
  | .star r | .frame r | .role _ r | .lines _ r => made token node r
  | .node kind r | .fold kind r => node kind && made token node r
  | .call _ | .ahead _ | .absent _ | .goesOn _ | .lineBreak _ => true
def madeAll (token node : Kind → Bool) : List (Rule σ) → Bool
  | [] => true
  | r :: rs => made token node r && madeAll token node rs
end

-- Where no kind asks for anything, there is nothing to show.
mutual
theorem shapes_of_made {token node : Kind → Bool}
    (tokens : ∀ kind, token kind = true → kind ≠ .comment ∧ shape kind [])
    (nodes : ∀ kind, node kind = true → kind ≠ .comment ∧ ∀ children, shape kind children) :
    (rule : Rule σ) → made token node rule = true → Shapes table shape rule
  | .token kind _, test | .glued kind _, test => tokens kind test
  | .seq rules, test | .alt rules, test => shapesAll_of_made tokens nodes rules test
  | .star r, test | .frame r, test | .role _ r, test | .lines _ r, test => shapes_of_made tokens nodes r test
  | .node kind r, test =>
    have both := Bool.and_eq_true_iff.mp test
    ⟨(nodes kind both.1).1, shapes_of_made tokens nodes r both.2, fun _ _ _ _ _ => (nodes kind both.1).2 _⟩
  | .fold kind r, test =>
    have both := Bool.and_eq_true_iff.mp test
    ⟨(nodes kind both.1).1, shapes_of_made tokens nodes r both.2, (nodes kind both.1).2⟩
  | .call _, _ | .ahead _, _ | .absent _, _ | .goesOn _, _ | .lineBreak _, _ => trivial
theorem shapesAll_of_made {token node : Kind → Bool}
    (tokens : ∀ kind, token kind = true → kind ≠ .comment ∧ shape kind [])
    (nodes : ∀ kind, node kind = true → kind ≠ .comment ∧ ∀ children, shape kind children) :
    (rules : List (Rule σ)) → madeAll token node rules = true → ShapesAll table shape rules
  | [], _ => trivial
  | r :: rs, test =>
    have both := Bool.and_eq_true_iff.mp test
    ⟨shapes_of_made tokens nodes r both.1, shapesAll_of_made tokens nodes rs both.2⟩
end

theorem shaped_leaf (named : kind ≠ .comment) (bare : shape kind []) (start stop : Cursor) :
    (Reader.leaf kind start stop).Shaped shape :=
  .part named bare nofun

-- The reader keeps to the shapes that its rules give.
theorem Reads.shaped (grammar : ∀ symbol, Shapes table shape (table symbol)) (read : Reads table may rule s t)
    (shapes : Shapes table shape rule) (quiet : s.Quiet) (before : ∀ n ∈ s.out, n.Shaped shape) :
    ∀ n ∈ t.out, n.Shaped shape := by
  -- What waits in front of an inner list goes in front of what the list gives.
  have leave {s t : Reader} {nodes : List Node} (quiet : s.Quiet) (before : ∀ n ∈ s.out, n.Shaped shape)
      (inner : ∀ n ∈ nodes, n.Shaped shape) : ∀ n ∈ (t.leave s nodes).out, n.Shaped shape := by
    intro n member
    rcases List.mem_append.mp member with new | old
    · exact inner n new
    · rcases List.mem_append.mp old with waiting | old
      · exact .comment (quiet n waiting)
      · exact before n old
  induction read with
  | token taken =>
    obtain ⟨stop, out, _⟩ := Reader.token_cases taken
    intro n member
    rw [out] at member
    rcases List.mem_cons.mp member with rfl | old
    · exact shaped_leaf shapes.1 shapes.2 _ _
    · rcases List.mem_append.mp old with waiting | old
      · exact .comment (quiet n waiting)
      · exact before n old
  | glued taken =>
    obtain ⟨stop, out, _⟩ := Reader.glued_cases taken
    intro n member
    rw [out] at member
    rcases List.mem_cons.mp member with rfl | old
    · exact shaped_leaf shapes.1 shapes.2 _ _
    · exact before n old
  | nil | enough | ahead | absent | goesOn => exact before
  | cons first _ one two =>
    exact two shapes.2 (first.quiet quiet) (one shapes.1 quiet before)
  | again first _ one two =>
    exact two shapes (first.quiet quiet) (one shapes quiet before)
  | alt member _ ih => exact ih (shapes.member member) quiet before
  | call _ ih => exact ih (grammar _) quiet before
  | lines _ ih => exact ih shapes quiet before
  | node read ih =>
    have inner := ih shapes.2.1 nofun nofun
    refine leave quiet before fun n member => ?_
    obtain rfl := List.mem_singleton.mp member
    exact .part shapes.1 (shapes.2.2 _ _ _ read inner) fun c inside => inner c (List.mem_reverse.mp inside)
  | frame _ ih => exact leave quiet before (ih shapes nofun nofun)
  | role _ ih =>
    have inner := ih shapes nofun nofun
    refine leave quiet before fun n member => ?_
    obtain ⟨m, inside, rfl⟩ := List.mem_map.mp member
    split
    · exact inner m inside
    · rename_i named
      exact (inner m inside).withRole (Bool.eq_false_iff.mpr named) _
  | fold _ ih =>
    have inner := ih shapes.2.1 quiet before
    intro n member
    unfold Reader.gather at member
    split at member
    · obtain rfl := List.mem_singleton.mp member
      exact .part shapes.1 (shapes.2.2 _) fun c inside => inner c (List.mem_reverse.mp inside)
    · exact inner n member
  | lineBreak ends =>
    obtain ⟨taken, out, waiting, _⟩ := Reader.lineBreak?_cases ends
    intro n member
    rw [out] at member
    rcases List.mem_append.mp member with new | old
    · exact .comment (quiet n (waiting n new))
    · exact before n old

end Rule
end ComponentAtlas.Source
