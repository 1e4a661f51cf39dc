import ComponentAtlas.Proofs.DocLayout
import ComponentAtlas.Proofs.HeritageEntries

namespace ComponentAtlas.Source

namespace Lexeme

-- A line, or a block that goes to the first closing delimiter.
def IsComment (cs : List Char) : Prop :=
  (∃ line, cs = '/' :: '/' :: line) ∨
    ∃ body, cs = '/' :: '*' :: (body ++ ['*', '/']) ∧ ¬['*', '/'] <:+: body

theorem blockEnd_eq_some (found : blockEnd cs count = some n) :
    ∃ body behind, cs = body ++ '*' :: '/' :: behind ∧ n = count + (body.length + 2) ∧ ¬['*', '/'] <:+: body := by
  fun_induction blockEnd cs count with
  | case1 behind count =>
    cases found
    exact ⟨[], behind, rfl, by simp, by simp⟩
  | case2 c rest count early ih =>
    obtain ⟨body, behind, rfl, rfl, opened⟩ := ih found
    refine ⟨c :: body, behind, rfl, by simp; omega, ?_⟩
    intro closed
    rcases List.infix_cons_iff.mp closed with here | later
    · -- The delimiter would have been found here.
      obtain ⟨tail, same⟩ := here
      obtain ⟨rfl, slash⟩ := List.cons.inj same
      exact early _ rfl (by rw [← slash]; rfl)
    · exact opened later
  | case3 => cases found

theorem isComment_take (scanned : comment cs = some n) : IsComment (cs.take n) := by
  unfold comment at scanned
  split at scanned
  · cases scanned
    rename_i rest
    exact .inl ⟨rest.take _, by rw [Nat.add_comm]; rfl⟩
  · rename_i rest
    obtain ⟨body, behind, rfl, rfl, opened⟩ := blockEnd_eq_some scanned
    refine .inr ⟨body, ?_, opened⟩
    have length : 2 + (body.length + 2) = (body ++ ['*', '/']).length + 2 := by simp; omega
    have split : body ++ '*' :: '/' :: behind = (body ++ ['*', '/']) ++ behind := by simp
    rw [length, List.take_succ_cons, List.take_succ_cons, split, List.take_left]
  · cases scanned

end Lexeme

namespace Cursor

theorem index_step (c : Cursor) : c.step.index = c.index + min 1 c.rest.length := by
  unfold step
  split <;> simp_all

theorem index_advance (n : Nat) (c : Cursor) : (c.advance n).index = c.index + min n c.rest.length := by
  induction n generalizing c with
  | zero => simp [advance]
  | succ n ih =>
    rw [advance, ih, index_step, rest_step, List.length_drop]
    omega

theorem upTo_advance (n : Nat) (c : Cursor) : c.upTo (c.advance n) = c.rest.take n := by
  rw [upTo, index_advance, Nat.add_sub_cancel_left, List.take_eq_take_iff]
  omega

end Cursor

namespace Node

def Remark (n : Node) : Prop := n.isComment = true → Lexeme.IsComment n.text.toList

theorem remark_of_kind {n : Node} (other : n.kind ≠ .comment) : n.Remark := by
  intro comment
  exact absurd (of_decide_eq_true comment) other

end Node

namespace Reader

variable {s t : Reader} {nodes : List Node}

structure Worded (s : Reader) : Prop where
  gap : ∀ n ∈ s.gap, n.Remark
  out : ∀ n ∈ s.out, n.Remark

theorem remark_leaf {start : Cursor} (scanned : Lexeme.comment start.rest = some n) :
    (leaf .comment start (start.advance n)).Remark := by
  intro _
  rw [Node.text, String.toList_ofList, leaf, Cursor.upTo_advance]
  exact Lexeme.isComment_take scanned

theorem skipGap_remarks {waiting : List Node} (before : ∀ n ∈ waiting, n.Remark) :
    ∀ n ∈ (skipGap fuel waiting c).1, n.Remark := by
  induction fuel generalizing waiting c with
  | zero => exact before
  | succ fuel ih =>
    rw [skipGap]
    dsimp only
    split
    · rename_i n scanned
      exact ih (List.forall_mem_cons.mpr ⟨remark_leaf scanned, before⟩)
    · exact before

theorem worded_arrive (size : Nat) (here : Cursor) (read : ∀ n ∈ nodes, n.Remark) : (arrive size here nodes).Worded := by
  refine ⟨?_, read⟩
  change ∀ n ∈ (skipGap (size + 1) [] here).1, n.Remark
  exact skipGap_remarks (List.forall_mem_nil _)

theorem Worded.token (worded : s.Worded) (named : kind ≠ .comment) (taken : s.token kind scan = some t) : t.Worded := by
  unfold Reader.token at taken
  split at taken
  · cases taken
    refine worded_arrive _ _ (List.forall_mem_cons.mpr ⟨Node.remark_of_kind named, ?_⟩)
    exact List.forall_mem_append.mpr ⟨worded.gap, worded.out⟩
  · cases taken

theorem Worded.glued (worded : s.Worded) (named : kind ≠ .comment) (taken : s.glued kind scan = some t) : t.Worded := by
  unfold Reader.glued at taken
  split at taken
  · cases taken
    exact worded_arrive _ _ (List.forall_mem_cons.mpr ⟨Node.remark_of_kind named, worded.out⟩)
  · cases taken

theorem Worded.leave (outer : s.Worded) (inner : t.Worded) (read : ∀ n ∈ nodes, n.Remark) : (t.leave s nodes).Worded :=
  ⟨inner.gap, List.forall_mem_append.mpr ⟨read, List.forall_mem_append.mpr ⟨outer.gap, outer.out⟩⟩⟩

theorem Worded.gather (worded : s.Worded) (named : kind ≠ .comment) : (s.gather kind).Worded := by
  unfold Reader.gather
  split
  · exact ⟨worded.gap, List.forall_mem_singleton.mpr (Node.remark_of_kind named)⟩
  · exact worded

theorem Worded.lineBreak (worded : s.Worded) (ends : s.lineBreak? afterValue = some t) : t.Worded := by
  obtain ⟨taken, out, waiting, left⟩ := lineBreak?_cases ends
  refine ⟨fun n member => worded.gap n (left n member), ?_⟩
  rw [out]
  exact List.forall_mem_append.mpr ⟨fun n member => worded.gap n (waiting n member), worded.out⟩

end Reader

namespace Rule

variable {σ : Type} {table : σ → Rule σ} {shape : Kind → List Node → Prop} {s t : Reader}

-- Only the gaps between tokens give comments.
theorem Reads.worded (grammar : ∀ symbol, Shapes table shape (table symbol)) (read : Reads table may rule s t)
    (shapes : Shapes table shape rule) (before : s.Worded) : t.Worded := by
  have fresh (s : Reader) : s.enter.Worded := ⟨List.forall_mem_nil _, List.forall_mem_nil _⟩
  induction read with
  | token taken => exact before.token shapes.1 taken
  | glued taken => exact before.glued shapes.1 taken
  | nil | enough | ahead | absent | goesOn => exact before
  | cons _ _ one two => exact two shapes.2 (one shapes.1 before)
  | again _ _ one two => exact two shapes (one shapes before)
  | alt member _ ih => exact ih (shapes.member member) before
  | call _ ih => exact ih (grammar _) before
  | lines _ ih => exact ih shapes before
  | node _ ih =>
    refine before.leave (ih shapes.2.1 (fresh _)) fun n made => ?_
    obtain rfl := List.mem_singleton.mp made
    exact Node.remark_of_kind shapes.1
  | frame _ ih =>
    have inner := ih shapes (fresh _)
    exact before.leave inner inner.out
  | role _ ih =>
    have inner := ih shapes (fresh _)
    refine before.leave inner fun n member => ?_
    obtain ⟨m, inside, rfl⟩ := List.mem_map.mp member
    split
    · exact inner.out m inside
    · rename_i named
      exact fun comment => absurd comment named
  | fold _ ih => exact (ih shapes.2.1 before).gather shapes.1
  | lineBreak ends => exact before.lineBreak ends

end Rule

theorem parseTree_remarks (parsed : parseTree dialect text = .ok tree) : ∀ n ∈ tree.children, n.Remark := by
  unfold parseTree at parsed
  dsimp only at parsed
  split at parsed
  · rename_i s done
    split at parsed
    · cases parsed
      have start : (Reader.start text).Worded := Reader.worded_arrive _ _ (List.forall_mem_nil _)
      have worded := (Rule.run_reads done).worded (Grammar.table_shapes dialect) (Grammar.shapes_plain rfl) start
      intro n member
      exact List.forall_mem_append.mpr ⟨worded.gap, worded.out⟩ n (List.mem_reverse.mp member)
    · cases parsed
  · cases parsed

end ComponentAtlas.Source

namespace ComponentAtlas.Outline.DocComment
open Source (Node)
open Source.Lexeme (IsComment)
open Text (isBlank trim trimLeft trimRight)

variable {comment inside cs : List Char}

-- Delimiters that do not overlap, and what is between them.
def framed (inside : List Char) : List Char := ['/', '*', '*'] ++ inside ++ ['*', '/']

-- The delimiters share a star.
def bare : List Char := ['/', '*', '*', '/']

theorem bare_ne_framed (inside : List Char) : bare ≠ framed inside := by
  intro same
  have lengths := congrArg List.length same
  simp [bare, framed] at lengths

-- Neither a doc comment nor what is taken for one.
def Unmarked (comment : List Char) : Prop := (∀ inside, comment ≠ framed inside) ∧ comment ≠ bare

def cleanInside (inside : List Char) : List Char := trim (joinLines ((splitLines inside).map cleanLine))

-- A text that is empty is not told.
def told : List Char → Option String
  | [] => none
  | cs => some (String.ofList cs)

theorem trim_sublist (cs : List Char) : (trim cs).Sublist cs := by
  have right (cs : List Char) : (trimRight cs).Sublist cs := by
    have shorter := (List.dropWhile_sublist isBlank (l := cs.reverse)).reverse
    rwa [List.reverse_reverse] at shorter
  exact (right _).trans (List.dropWhile_sublist isBlank)

theorem dropOne_sublist (c : Char) (cs : List Char) : (dropOne c cs).Sublist cs := by
  unfold dropOne
  split
  · split
    · exact List.sublist_cons_self _ _
    · exact List.Sublist.refl _
  · exact List.Sublist.refl _

theorem cleanLine_sublist (line : List Char) : (cleanLine line).Sublist line :=
  (dropOne_sublist ' ' _).trans ((dropOne_sublist '*' _).trans (trim_sublist line))

theorem joinLines_sublist (lines : List (List Char)) : (joinLines (lines.map cleanLine)).Sublist (joinLines lines) := by
  induction lines with
  | nil => exact List.Sublist.refl _
  | cons line more ih =>
    by_cases none : more = []
    · subst none
      simpa [joinLines] using cleanLine_sublist line
    · rw [List.map_cons, joinLines_cons line none, joinLines_cons _ (by simpa using none)]
      exact (cleanLine_sublist line).append (ih.cons_cons '\n')

theorem splitLines_ne_nil (cs : List Char) : splitLines cs ≠ [] := by
  cases cs with
  | nil => simp [splitLines]
  | cons c rest =>
    rw [splitLines]
    split
    · simp
    · split <;> simp

theorem joinLines_splitLines (cs : List Char) : joinLines (splitLines cs) = cs := by
  induction cs with
  | nil => rfl
  | cons c rest ih =>
    rw [splitLines]
    split
    · rename_i feed
      rw [joinLines_cons _ (splitLines_ne_nil rest), ih, feed]
      rfl
    · obtain ⟨line, more, split⟩ := List.exists_cons_of_ne_nil (splitLines_ne_nil rest)
      rw [split] at ih ⊢
      dsimp only
      by_cases none : more = []
      · subst none
        simpa [joinLines] using ih
      · rw [joinLines_cons _ none] at ih ⊢
        rw [List.cons_append, ih]

theorem cleanInside_sublist (inside : List Char) : (cleanInside inside).Sublist inside := by
  have shorter := (trim_sublist _).trans (joinLines_sublist (splitLines inside))
  rwa [joinLines_splitLines] at shorter

theorem opens_iff (comment : IsComment cs) : opens cs = true ↔ ¬Unmarked cs := by
  constructor
  · intro opened unmarked
    rcases comment with ⟨line, rfl⟩ | ⟨body, rfl, -⟩
    · simp [opens] at opened
    · cases body with
      | nil => exact unmarked.2 rfl
      | cons c body =>
        obtain rfl : '*' = c := by simpa [opens] using opened
        exact unmarked.1 body rfl
  · intro doc
    by_contra closed
    refine doc ⟨?_, ?_⟩
    · rintro inside rfl
      exact closed rfl
    · rintro rfl
      exact closed rfl

theorem dropOpening_of_head (other : cs.head? ≠ some '/') : dropOpening cs = cs := by
  unfold dropOpening
  split
  · simp at other
  · rfl

theorem dropClosing_closed (opened : ¬['*', '/'] <:+ inside) : dropClosing (inside ++ ['*', '/']) = inside := by
  have once : dropClosing (inside ++ ['*', '/']) = (dropClosingReversed inside.reverse).reverse := by
    simp [dropClosing, dropClosingReversed]
  have rest : dropClosingReversed inside.reverse = inside.reverse := by
    unfold dropClosingReversed
    split
    · rename_i more reversed
      exact absurd ⟨more.reverse, by rw [← List.reverse_reverse inside, reversed]; simp⟩ opened
    · rfl
  rw [once, rest, List.reverse_reverse]

theorem clean_framed (comment : IsComment (framed inside)) : clean (framed inside) = cleanInside inside := by
  have opened : ¬['*', '/'] <:+: '*' :: inside := by
    rcases comment with ⟨line, same⟩ | ⟨body, same, opened⟩
    · simp [framed] at same
    · have whole : ('*' :: inside) ++ ['*', '/'] = body ++ ['*', '/'] := by simpa [framed] using same
      rwa [List.append_cancel_right whole]
  have head : (inside ++ ['*', '/']).head? ≠ some '/' := by
    cases inside with
    | nil => simp
    | cons c rest =>
      intro slash
      obtain rfl : c = '/' := by simpa using slash
      exact opened (List.prefix_append ['*', '/'] rest).isInfix
  have tail : ¬['*', '/'] <:+ inside := fun closed => opened (closed.trans (List.suffix_cons _ _)).isInfix
  have front : dropOpening (framed inside) = inside ++ ['*', '/'] := dropOpening_of_head head
  unfold clean
  rw [front, dropClosing_closed tail]
  rfl

-- The texts of the comments that end a list of nodes, nearest first.
def run (before : List Node) : List (List Char) := (before.takeWhile (·.isComment)).map (·.text.toList)

theorem isComment_of_run (remarks : ∀ n ∈ before, n.Remark) : ∀ cs ∈ run before, IsComment cs := by
  intro cs member
  obtain ⟨n, ending, rfl⟩ := List.mem_map.mp member
  exact remarks n ((List.takeWhile_sublist _).subset ending) (List.mem_takeWhile_imp ending)

theorem find_eq (before : List Node) :
    find before = ((run before).find? opens).bind fun comment => told (clean comment) := by
  induction before with
  | nil => rfl
  | cons n earlier ih =>
    cases isComment : n.isComment with
    | false => simp [find, run, isComment]
    | true =>
      have next : run (n :: earlier) = n.text.toList :: run earlier := by simp [run, isComment]
      rw [next, List.find?_cons, find, isComment]
      cases opened : opens n.text.toList with
      | false => exact ih
      | true =>
        simp only [Bool.not_true, Bool.false_eq_true, if_true, if_false, Option.bind_some]
        cases clean n.text.toList <;> rfl

theorem find_first (split : run before = nearer ++ comment :: farther) (closed : ∀ cs ∈ nearer, opens cs = false)
    (opened : opens comment = true) : find before = told (clean comment) := by
  have first : (run before).find? opens = some comment := by
    rw [split, List.find?_append, List.find?_eq_none.mpr fun cs member => ne_true_of_eq_false (closed cs member)]
    simp [opened]
  rw [find_eq, first]
  rfl

-- What is attached behind a run of comments: what the nearest doc comment says, or nothing without a doc comment. But if
-- the block without an inside is nearer, its slash.
structure Attached (run : List (List Char)) (doc : Option String) : Prop where
  nearest : ∀ nearer inside farther, run = nearer ++ framed inside :: farther → (∀ cs ∈ nearer, Unmarked cs) →
    doc = told (cleanInside inside) ∧ (cleanInside inside).Sublist inside
  nothing : (∀ cs ∈ run, Unmarked cs) → doc = none
  shared : ∀ nearer farther, run = nearer ++ bare :: farther → (∀ cs ∈ nearer, Unmarked cs) → doc = some "/"

theorem find_attached (comments : ∀ cs ∈ run before, IsComment cs) : Attached (run before) (find before) := by
  have closed {nearer : List (List Char)} (inside : ∀ cs ∈ nearer, cs ∈ run before)
      (unmarked : ∀ cs ∈ nearer, Unmarked cs) : ∀ cs ∈ nearer, opens cs = false := by
    intro cs member
    rw [Bool.eq_false_iff, ne_eq, opens_iff (comments cs (inside cs member)), not_not]
    exact unmarked cs member
  refine ⟨fun nearer inside farther split unmarked => ?_, fun unmarked => ?_, fun nearer farther split unmarked => ?_⟩
  · have within : ∀ cs ∈ nearer, cs ∈ run before := fun cs member => split ▸ List.mem_append_left _ member
    have comment : IsComment (framed inside) := comments _ (split ▸ List.mem_append_right _ List.mem_cons_self)
    rw [find_first split (closed within unmarked) rfl, clean_framed comment]
    exact ⟨rfl, cleanInside_sublist inside⟩
  · have none : (run before).find? opens = none :=
      List.find?_eq_none.mpr fun cs member => ne_true_of_eq_false (closed (fun _ => id) unmarked cs member)
    rw [find_eq, none]
    rfl
  · have within : ∀ cs ∈ nearer, cs ∈ run before := fun cs member => split ▸ List.mem_append_left _ member
    rw [find_first split (closed within unmarked) rfl]
    decide +kernel

end ComponentAtlas.Outline.DocComment

namespace ComponentAtlas.Outline
open Source

variable {doc : Option String} {decl : Declaration}

theorem aliasOf_doc {named : AliasDeclaration} (lowered : Declaration.aliasOf n doc = some named) : named.doc = doc := by
  unfold Declaration.aliasOf at lowered
  split at lowered
  · cases lowered
    rfl
  · cases lowered

theorem ofPlainNode_doc (lowered : Declaration.ofPlainNode n doc = some decl) : decl.doc = doc := by
  unfold Declaration.ofPlainNode at lowered
  split at lowered
  case h_7 => cases lowered
  case h_5 =>
    obtain ⟨named, made, rfl⟩ := Option.map_eq_some_iff.mp lowered
    exact aliasOf_doc made
  all_goals
    obtain ⟨made, named, rfl⟩ := Option.map_eq_some_iff.mp lowered
    obtain ⟨name, _, rfl⟩ := Option.map_eq_some_iff.mp named
    rfl

mutual
theorem ofNode_doc : (n : Node) → Declaration.ofNode doc n = some decl → decl.doc = doc
  | ⟨kind, role, start, stop, children⟩, lowered => by
    by_cases ambient : kind = .ambientDeclaration
    · subst ambient
      exact ofFirst_doc children lowered
    · rw [Declaration.ofNode_plain _ doc ambient] at lowered
      exact ofPlainNode_doc lowered
theorem ofFirst_doc : (nodes : List Node) → Declaration.ofFirst doc nodes = some decl → decl.doc = doc
  | [], lowered => by cases lowered
  | n :: rest, lowered => by
    rw [Declaration.ofFirst] at lowered
    split at lowered
    · exact ofNode_doc n lowered
    · exact ofFirst_doc rest lowered
end

theorem ofExportParts_declaration (source : Option String) (nodes : List Node) :
    StatementForm.ofExportParts source nodes ≠ some (.declaration mode decl) := by
  induction nodes with
  | nil => nofun
  | cons n rest ih =>
    unfold StatementForm.ofExportParts
    split
    · simp
    · simp
    · simp
    · simp
    · exact ih

theorem ofExport_doc (lowered : StatementForm.ofExport n doc = .declaration mode decl) : decl.doc = doc := by
  unfold StatementForm.ofExport at lowered
  split at lowered
  · split at lowered
    · rename_i made
      cases lowered
      exact ofNode_doc _ made
    · cases lowered
  · split at lowered
    · split at lowered
      · rename_i made
        cases lowered
        exact ofNode_doc _ made
      · cases lowered
    · cases lowered
  · cases parts : StatementForm.ofExportParts ((n.child? .source).map (unquote ·.text)) n.children with
    | none => simp [parts] at lowered
    | some form =>
      simp only [parts, Option.getD_some] at lowered
      exact absurd (lowered ▸ parts) (ofExportParts_declaration _ _)

theorem ofNode_found (lowered : StatementForm.ofNode n before = .declaration mode decl) :
    decl.doc = DocComment.find before := by
  unfold StatementForm.ofNode at lowered
  dsimp only at lowered
  split at lowered
  · exact ofExport_doc lowered
  · unfold StatementForm.ofImport at lowered
    split at lowered <;> cases lowered
  · split at lowered
    · rename_i made
      cases lowered
      exact ofNode_doc _ made
    · cases lowered

theorem statementsOf_append (before front rest : List Node) :
    statementsOf before (front ++ rest) = statementsOf before front ++ statementsOf (front.reverse ++ before) rest := by
  induction front generalizing before with
  | nil => rfl
  | cons n more ih =>
    rw [List.cons_append, statementsOf, statementsOf, ih, List.reverse_cons, List.append_assoc]
    split <;> rfl

-- The statement of a node stands behind those of the nodes in front of it, and its declaration has what is attached
-- behind the run of comments there.
theorem outline_attached (read : outline path text = .ok file) :
    ∃ tree, parseTree (dialectOf path) text = .ok tree ∧ file.statements.length = tree.solid.length ∧
      ∀ front n back, tree.children = front ++ n :: back → n.isComment = false →
        ∃ s, file.statements[(front.filter (!·.isComment)).length]? = some s ∧ s.range = n.range ∧
          ∀ mode decl, s.form = .declaration mode decl →
            DocComment.Attached (DocComment.run front.reverse) decl.doc := by
  unfold outline at read
  cases parsed : parseTree (dialectOf path) text with
  | error place => simp [parsed] at read
  | ok tree =>
    cases (outline_of_parsed parsed).symm.trans read
    have count (nodes : List Node) : (statementsOf [] nodes).length = (nodes.filter (!·.isComment)).length :=
      (statementsOf_nodes [] nodes).length_eq.symm
    refine ⟨tree, rfl, count tree.children, fun front n back split solid => ?_⟩
    refine ⟨{ form := StatementForm.ofNode n front.reverse, range := n.range }, ?_, rfl, fun mode decl lowered => ?_⟩
    · rw [split, statementsOf_append, List.append_nil, statementsOf, if_neg (ne_true_of_eq_false solid),
        ← count front]
      simp
    · rw [ofNode_found lowered]
      refine DocComment.find_attached (DocComment.isComment_of_run fun m inFront => ?_)
      exact parseTree_remarks parsed m (split ▸ List.mem_append_left _ (List.mem_reverse.mp inFront))

def StatementForm.declared? : StatementForm → Option Declaration
  | .declaration _ decl => some decl
  | _ => none

theorem StatementForm.declared?_eq_some {form : StatementForm} (declares : form.declared? = some decl) :
    ∃ mode, form = .declaration mode decl := by
  cases form with
  | declaration mode made =>
    cases declares
    exact ⟨mode, rfl⟩
  | _ => cases declares

def lastRun (text : String) : Option (List (List Char) × List (Option Declaration)) :=
  match parseTree .plain text with
  | .ok tree =>
    match tree.children.reverse with
    | n :: before =>
      if n.isComment then none
      else some (DocComment.run before, (statementsOf [] tree.children).map (·.form.declared?))
    | [] => none
  | .error _ => none

theorem lastRun_eq_some (seen : lastRun text = some (cs, declared)) :
    ∃ tree front n, parseTree .plain text = .ok tree ∧ tree.children = front ++ [n] ∧ n.isComment = false ∧
      DocComment.run front.reverse = cs ∧ (statementsOf [] tree.children).map (·.form.declared?) = declared := by
  unfold lastRun at seen
  split at seen
  · rename_i tree parsed
    split at seen
    · rename_i n before ends
      split at seen
      · cases seen
      · rename_i solid
        cases seen
        refine ⟨tree, before.reverse, n, parsed, ?_, Bool.eq_false_iff.mpr solid, ?_, rfl⟩
        · rw [← List.reverse_reverse tree.children, ends, List.reverse_cons]
        · rw [List.reverse_reverse]
    · cases seen
  · cases seen

def shieldedText : String := "/** A doc. */\n// a\nexport class A \x7b\x7d"

theorem outline_attached_shielded : ∃ file s mode decl, outline ⟨"a.ts"⟩ shieldedText = .ok file ∧ s ∈ file.statements ∧
    s.form = .declaration mode decl ∧ decl.doc = some "A doc." := by
  have seen : (lastRun shieldedText).map (fun last => (last.1, last.2.map Option.isSome)) =
      some (["// a".toList, DocComment.framed " A doc. ".toList], [true]) := by
    decide +kernel
  obtain ⟨⟨cs, declared⟩, last, same⟩ := Option.map_eq_some_iff.mp seen
  obtain ⟨rfl, declares⟩ := Prod.mk.inj same
  obtain ⟨tree, front, n, parsed, children, solid, before, rfl⟩ := lastRun_eq_some last
  have plain : dialectOf ⟨"a.ts"⟩ = .plain := by decide +kernel
  have read := outline_of_parsed (plain ▸ parsed)
  obtain ⟨again, parsed', _, told⟩ := outline_attached read
  obtain rfl : tree = again := Except.ok.inj (parsed.symm.trans (plain ▸ parsed'))
  obtain ⟨s, here, _, attached⟩ := told front n [] children solid
  have member : s ∈ statementsOf [] tree.children := List.mem_of_getElem? here
  have declares : s.form.declared?.isSome = true := by
    have inside := List.mem_map_of_mem (f := Option.isSome) (List.mem_map_of_mem (f := (·.form.declared?)) member)
    rw [declares] at inside
    exact List.mem_singleton.mp inside
  obtain ⟨decl, made⟩ := Option.isSome_iff_exists.mp declares
  obtain ⟨mode, form⟩ := StatementForm.declared?_eq_some made
  have line : DocComment.Unmarked "// a".toList := ⟨by simp [DocComment.framed], by decide⟩
  have attached := before ▸ attached mode decl form
  obtain ⟨doc, _⟩ := attached.nearest ["// a".toList] " A doc. ".toList [] rfl (List.forall_mem_singleton.mpr line)
  have cleaned : DocComment.told (DocComment.cleanInside " A doc. ".toList) = some "A doc." := by decide +kernel
  exact ⟨_, s, mode, decl, read, member, form, doc.trans cleaned⟩

def bareText : String := "/** A doc. */\n/**/\nclass A \x7b\x7d\n"

-- The block without an inside takes the place of the doc comment behind it.
theorem bare_attached : ∃ file tree front n s mode decl, outline ⟨"a.ts"⟩ bareText = .ok file ∧
    parseTree .plain bareText = .ok tree ∧ tree.children = front ++ [n] ∧ n.isComment = false ∧
    DocComment.run front.reverse = [DocComment.bare, DocComment.framed " A doc. ".toList] ∧
    (∀ inside, DocComment.bare ≠ DocComment.framed inside) ∧ file.statements = [s] ∧ s.form = .declaration mode decl ∧
    DocComment.told (DocComment.cleanInside " A doc. ".toList) = some "A doc." ∧ decl.doc = some "/" := by
  have seen : (lastRun bareText).map (fun last => (last.1, last.2.map (·.map (·.doc)))) =
      some ([DocComment.bare, DocComment.framed " A doc. ".toList], [some (some "/")]) := by
    decide +kernel
  obtain ⟨⟨cs, declared⟩, last, same⟩ := Option.map_eq_some_iff.mp seen
  obtain ⟨rfl, docs⟩ := Prod.mk.inj same
  obtain ⟨tree, front, n, parsed, children, solid, before, rfl⟩ := lastRun_eq_some last
  rw [List.map_map] at docs
  obtain ⟨s, single, doc⟩ := List.map_eq_singleton_iff.mp docs
  obtain ⟨decl, made, doc⟩ := Option.map_eq_some_iff.mp doc
  obtain ⟨mode, form⟩ := StatementForm.declared?_eq_some made
  have plain : dialectOf ⟨"a.ts"⟩ = .plain := by decide +kernel
  have cleaned : DocComment.told (DocComment.cleanInside " A doc. ".toList) = some "A doc." := by decide +kernel
  exact ⟨_, tree, front, n, s, mode, decl, outline_of_parsed (plain ▸ parsed), parsed, children, solid, before,
    DocComment.bare_ne_framed, single, form, cleaned, doc⟩

end ComponentAtlas.Outline
