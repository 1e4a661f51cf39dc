import ComponentAtlas.Path
import Mathlib.Data.List.Basic

namespace ComponentAtlas.Path

variable {p q : Path}

def parts (p : Path) : List (List Char) := segments p.text.toList

-- A piece that leads nowhere else.
def stays (seg : List Char) : Bool := seg = [] || seg = ['.']

def steps (segs : List (List Char)) : List (List Char) := segs.filter (!stays ·)

def stepTo (seg : List Char) : Component :=
  if seg = ['.', '.'] then .parent else .name (String.ofList seg)

-- What a path opens with before any piece of it leads somewhere.
def opening (p : Path) : List (Component × Nat) :=
  if p.isAbsolute then [(.root, 1)] else if p.parts.head? = some ['.'] then [(.current, 1)] else []

def glue (segs : List (List Char)) : List Char := ['/'].intercalate segs

-- The characters that some pieces take up, each with the slash behind it.
def width : List (List Char) → Nat
  | [] => 0
  | seg :: rest => seg.length + 1 + width rest

theorem segments_eq_splitOn (cs : List Char) : segments cs = cs.splitOn '/' := by
  induction cs with
  | nil => rfl
  | cons c rest ih =>
    rw [segments, List.splitOn_cons_eq_if_modifyHead, ih]
    by_cases slash : c = '/'
    · simp [slash]
    · have some := List.splitOn_ne_nil '/' rest
      cases pieces : rest.splitOn '/' with
      | nil => exact absurd pieces some
      | cons first more => simp [slash]

theorem segments_append (a b : List Char) : segments (a ++ '/' :: b) = segments a ++ segments b := by
  simp only [segments_eq_splitOn]
  exact List.splitOn_append_cons_self a b

theorem segments_ne_nil (cs : List Char) : segments cs ≠ [] := by
  rw [segments_eq_splitOn]
  exact List.splitOn_ne_nil '/' cs

theorem parts_ne_nil (p : Path) : p.parts ≠ [] := segments_ne_nil p.text.toList

-- The pieces give the text back, and none has a slash in it.
theorem glue_parts (p : Path) : glue p.parts = p.text.toList := by
  rw [glue, parts, segments_eq_splitOn, List.intercalate_splitOn]

theorem no_slash (member : seg ∈ segments cs) : '/' ∉ seg := by
  induction cs generalizing seg with
  | nil => simp_all [segments]
  | cons c rest ih =>
    rw [segments] at member
    split at member
    · rcases List.mem_cons.mp member with rfl | later
      · exact List.not_mem_nil
      · exact ih later
    · rename_i other
      split at member
      · rw [List.mem_singleton.mp member]
        simpa using Ne.symm other
      · rename_i first more pieces
        rcases List.mem_cons.mp member with rfl | later
        · have inside : '/' ∉ first := ih (pieces ▸ List.mem_cons_self)
          simp [inside, Ne.symm other]
        · exact ih (pieces ▸ List.mem_cons_of_mem _ later)

theorem parts_of_glue (nonempty : segs ≠ []) (free : ∀ seg ∈ segs, '/' ∉ seg) :
    parts ⟨String.ofList (glue segs)⟩ = segs := by
  rw [parts, segments_eq_splitOn, String.toList_ofList, glue]
  exact List.splitOn_intercalate '/' free nonempty

theorem glue_append (one : a ≠ []) (two : b ≠ []) : glue (a ++ b) = glue a ++ '/' :: glue b := by
  induction a with
  | nil => exact absurd rfl one
  | cons seg rest ih =>
    cases rest with
    | nil =>
      obtain ⟨first, more, rfl⟩ := List.exists_cons_of_ne_nil two
      simp [glue, List.intercalate_cons_cons]
    | cons next rest =>
      have later := ih (List.cons_ne_nil _ _)
      simp only [glue, List.cons_append, List.intercalate_cons_cons] at later ⊢
      simp [later]

theorem glue_lead (before : List (List Char)) (seg : List Char) (idle : List (List Char)) :
    glue (before ++ seg :: idle) = before.flatMap (· ++ ['/']) ++ glue (seg :: idle) := by
  induction before with
  | nil => rfl
  | cons first rest ih =>
    rw [List.cons_append, ← List.singleton_append, glue_append (List.cons_ne_nil _ _) (by simp), ih]
    simp [glue]

theorem length_lead (before : List (List Char)) : (before.flatMap (· ++ ['/'])).length = width before := by
  induction before with
  | nil => rfl
  | cons seg rest ih => rw [List.flatMap_cons, List.length_append, List.length_append, ih, width, List.length_singleton]

theorem length_glue (segs : List (List Char)) (seg : List Char) :
    (glue (segs ++ [seg])).length = width segs + seg.length := by
  rw [glue_lead, List.length_append, length_lead]
  simp [glue]

theorem inner_eq (seg : List Char) (stop : Nat) :
    inner seg stop = if stays seg then [] else [(stepTo seg, stop)] := by
  unfold inner stays stepTo
  split
  · rfl
  · split <;> rfl

theorem innerSpans_append (offset : Nat) (a b : List (List Char)) :
    innerSpans offset (a ++ b) = innerSpans offset a ++ innerSpans (offset + width a) b := by
  induction a generalizing offset with
  | nil => simp [innerSpans, width]
  | cons seg rest ih =>
    have there : offset + seg.length + 1 + width rest = offset + width (seg :: rest) := by
      simp [width]
      omega
    rw [List.cons_append, innerSpans, ih, innerSpans, there, List.append_assoc]

theorem map_fst_innerSpans (offset : Nat) (segs : List (List Char)) :
    (innerSpans offset segs).map (·.1) = (steps segs).map stepTo := by
  induction segs generalizing offset with
  | nil => rfl
  | cons seg rest ih =>
    rw [innerSpans, List.map_append, ih, inner_eq, steps, steps, List.filter_cons]
    cases stays seg <;> rfl

-- Only the root makes the first of several pieces empty.
theorem isAbsolute_iff : p.isAbsolute = true ↔ ∃ next more, p.parts = [] :: next :: more := by
  unfold isAbsolute parts
  cases p.text.toList with
  | nil => simp [segments]
  | cons c rest =>
    simp only [List.head?_cons, Option.some.injEq, decide_eq_true_eq, segments]
    by_cases slash : c = '/'
    · obtain ⟨next, more, pieces⟩ := List.exists_cons_of_ne_nil (segments_ne_nil rest)
      simp [slash, pieces]
    · simp only [slash, if_false, false_iff]
      cases segments rest <;> simp

theorem spans_eq (p : Path) : p.spans = p.opening ++ innerSpans 0 p.parts := by
  unfold spans opening
  have pieces : segments p.text.toList = p.parts := rfl
  rw [pieces]
  cases same : p.parts with
  | nil => exact absurd same p.parts_ne_nil
  | cons seg rest =>
    dsimp only
    rw [innerSpans, Nat.zero_add, List.head?_cons, ← List.append_assoc]
    congr 1
    split
    · rename_i absolute
      obtain ⟨next, more, pieces⟩ := isAbsolute_iff.mp absolute
      rw [same] at pieces
      cases pieces
      rfl
    · by_cases dot : seg = ['.']
      · simp [dot, inner]
      · simp [dot]

theorem components_eq (p : Path) : p.components = p.opening.map (·.1) ++ (steps p.parts).map stepTo := by
  rw [components, spans_eq, List.map_append, map_fst_innerSpans]

theorem opening_cases (p : Path) : (p.isAbsolute = true ∧ p.opening = [(.root, 1)]) ∨
    (p.isAbsolute = false ∧ (p.opening = [(.current, 1)] ∨ p.opening = [])) := by
  unfold opening
  cases p.isAbsolute with
  | true => simp
  | false =>
    simp only [Bool.false_eq_true, if_false, false_and, true_and, false_or]
    split <;> simp

theorem stepTo_injective (equal : stepTo a = stepTo b) : a = b := by
  unfold stepTo at equal
  split at equal <;> split at equal
  · simp_all
  · cases equal
  · cases equal
  · simpa using congrArg String.toList (Component.name.inj equal)

theorem stepTo_ne (seg : List Char) : stepTo seg ≠ .root ∧ stepTo seg ≠ .current := by
  unfold stepTo
  split <;> exact ⟨nofun, nofun⟩

-- Two spellings of one place open alike and take the same steps.
theorem same_iff : p.Same q ↔ p.opening = q.opening ∧ steps p.parts = steps q.parts := by
  constructor
  · intro same
    rw [Same, components_eq, components_eq] at same
    have steps_eq : ∀ {a b : List (List Char)}, a.map stepTo = b.map stepTo → a = b :=
      fun equal => List.map_injective_iff.mpr (fun _ _ => stepTo_injective) equal
    have unlike : ∀ {c : Component} {rest a}, (c = .root ∨ c = .current) → c :: rest ≠ List.map stepTo a := by
      rintro c rest (_ | ⟨seg, _⟩) kind equal
      · cases equal
      · cases equal
        exact kind.elim (stepTo_ne seg).1 (stepTo_ne seg).2
    rcases p.opening_cases with ⟨-, one⟩ | ⟨-, one | one⟩ <;>
      rcases q.opening_cases with ⟨-, two⟩ | ⟨-, two | two⟩ <;>
      rw [one, two] at same <;> rw [one, two] <;>
      simp only [List.map_cons, List.map_nil, List.nil_append, List.cons_append, List.cons.injEq, reduceCtorEq,
        false_and, true_and] at same
    · exact ⟨rfl, steps_eq same⟩
    · exact absurd same (unlike (.inl rfl))
    · exact ⟨rfl, steps_eq same⟩
    · exact absurd same (unlike (.inr rfl))
    · exact absurd same.symm (unlike (.inl rfl))
    · exact absurd same.symm (unlike (.inr rfl))
    · exact ⟨rfl, steps_eq same⟩
  · rintro ⟨opens, steps⟩
    rw [Same, components_eq, components_eq, opens, steps]

theorem Same.isAbsolute (same : p.Same q) : p.isAbsolute = q.isAbsolute := by
  have opens := (same_iff.mp same).1
  rcases p.opening_cases with ⟨one, open1⟩ | ⟨one, open1 | open1⟩ <;>
    rcases q.opening_cases with ⟨two, open2⟩ | ⟨two, open2 | open2⟩ <;>
    rw [open1, open2] at opens <;> simp_all

-- Paths with the same pieces in front of others open alike.
theorem opening_of_front (front : a ≠ []) (one : p.parts = a ++ b) (two : q.parts = a ++ c) (some : b ≠ [])
    (some' : c ≠ []) : p.opening = q.opening := by
  obtain ⟨seg, rest, rfl⟩ := List.exists_cons_of_ne_nil front
  have absolute : p.isAbsolute = q.isAbsolute := by
    rw [Bool.eq_iff_iff, isAbsolute_iff, isAbsolute_iff, one, two]
    cases rest <;> cases b <;> cases c <;> simp_all
  rw [opening, opening, absolute, one, two]
  rfl

-- Without an opening, the first piece of several leads somewhere.
theorem front_nil (opens : p.opening = []) (pieces : p.parts = front ++ tail) (some : tail ≠ [])
    (none : steps front = []) : front = [] := by
  cases front with
  | nil => rfl
  | cons seg rest =>
    have idle : stays seg = true := by
      rw [steps, List.filter_eq_nil_iff] at none
      simpa using none seg List.mem_cons_self
    simp only [stays, Bool.or_eq_true, decide_eq_true_eq] at idle
    unfold opening at opens
    rcases idle with rfl | rfl
    · have absolute : p.isAbsolute = true := by
        rw [isAbsolute_iff, pieces]
        cases rest <;> cases tail <;> simp_all
      simp [absolute] at opens
    · simp only [pieces, List.cons_append, List.head?_cons, if_true] at opens
      split at opens <;> cases opens

theorem components_eq_nil : p.components = [] ↔ p.text = "" := by
  constructor
  · intro none
    rw [components_eq, List.append_eq_nil_iff, List.map_eq_nil_iff, List.map_eq_nil_iff] at none
    obtain ⟨opens, idle⟩ := none
    have pieces := (List.dropLast_append_getLast p.parts_ne_nil).symm
    rw [pieces, steps, List.filter_append, List.append_eq_nil_iff] at idle
    rw [front_nil opens pieces (by simp) idle.1, List.nil_append] at pieces
    have whole := p.glue_parts
    have last : p.parts.getLast p.parts_ne_nil ≠ ['.'] := by
      intro dot
      rw [dot] at pieces
      unfold opening at opens
      rw [pieces, List.head?_cons, if_pos rfl] at opens
      split at opens <;> cases opens
    have empty : p.parts.getLast p.parts_ne_nil = [] := by
      simpa [stays, last] using idle.2
    rw [empty] at pieces
    rw [pieces] at whole
    simpa [glue] using whole.symm
  · intro empty
    obtain ⟨text⟩ := p
    cases empty
    rfl

theorem join_of_isAbsolute (d : Path) {s : Path} (absolute : s.isAbsolute = true) : d.join s = s := by
  rw [join, absolute, Bool.true_or, if_pos rfl]

theorem join_of_empty {d : Path} (s : Path) (empty : d.text = "") : d.join s = s := by
  rw [join, empty]
  simp

theorem text_ne {d : Path} (full : d.text ≠ "") : d.text.toList ≠ [] := by
  simpa using full

-- Joining puts the pieces of a relative path behind pieces that take the same steps from the same start.
theorem join_parts {d s : Path} (full : d.text ≠ "") (relative : s.isAbsolute = false) :
    ∃ front, front ≠ [] ∧ (d.join s).parts = front ++ s.parts ∧ steps front = steps d.parts ∧
      front.head? = d.parts.head? := by
  have free : d.text.isEmpty = false := by simpa using full
  rw [join, relative, free]
  simp only [Bool.or_self, Bool.false_eq_true, if_false]
  split
  · rename_i slash
    obtain ⟨init, chars⟩ := List.getLast?_eq_some_iff.mp slash
    have whole : d.parts = segments init ++ [[]] := by
      rw [parts, chars]
      exact segments_append init []
    refine ⟨segments init, segments_ne_nil init, ?_, ?_, ?_⟩
    · rw [parts, String.toList_append, chars, List.append_assoc]
      exact segments_append init _
    · simp [whole, steps, stays]
    · rw [whole, List.head?_append_of_ne_nil _ (segments_ne_nil init)]
  · refine ⟨d.parts, d.parts_ne_nil, ?_, rfl, rfl⟩
    rw [parts, String.toList_append, String.toList_append, List.append_assoc]
    exact segments_append _ _

theorem isAbsolute_join {d s : Path} (full : d.text ≠ "") (relative : s.isAbsolute = false) :
    (d.join s).isAbsolute = d.isAbsolute := by
  have free : d.text.isEmpty = false := by simpa using full
  obtain ⟨c, rest, chars⟩ := List.exists_cons_of_ne_nil (text_ne full)
  rw [join, relative, free]
  simp only [Bool.or_self, Bool.false_eq_true, if_false]
  split <;> simp [isAbsolute, chars]

theorem opening_join {d s : Path} (full : d.text ≠ "") (relative : s.isAbsolute = false) :
    (d.join s).opening = d.opening := by
  obtain ⟨front, some, pieces, -, first⟩ := join_parts full relative
  rw [opening, opening, isAbsolute_join full relative, pieces, List.head?_append_of_ne_nil _ some, first]

theorem join_same {d d' : Path} (same : d.Same d') (s : Path) : (d.join s).Same (d'.join s) := by
  by_cases empty : d.text = ""
  · have empty' : d'.text = "" := components_eq_nil.mp (same ▸ components_eq_nil.mpr empty)
    rw [join_of_empty s empty, join_of_empty s empty']
    rfl
  · have full' : d'.text ≠ "" := fun empty' => empty (components_eq_nil.mp (same.trans (components_eq_nil.mpr empty')))
    cases relative : s.isAbsolute with
    | true =>
      rw [join_of_isAbsolute d relative, join_of_isAbsolute d' relative]
      rfl
    | false =>
      obtain ⟨opens, taken⟩ := same_iff.mp same
      obtain ⟨front, -, pieces, one, -⟩ := join_parts empty relative
      obtain ⟨front', -, pieces', two, -⟩ := join_parts full' relative
      refine same_iff.mpr ⟨?_, ?_⟩
      · rw [opening_join empty relative, opening_join full' relative, opens]
      · rw [pieces, pieces', steps, steps, List.filter_append, List.filter_append]
        exact congrArg (· ++ _) (one.trans (taken.trans two.symm))

-- Pieces that take no step, or those up to the last step and the idle ones behind it.
theorem split_last (segs : List (List Char)) : steps segs = [] ∨
    ∃ before seg idle, segs = before ++ seg :: idle ∧ stays seg = false ∧ steps idle = [] := by
  induction segs with
  | nil => exact .inl rfl
  | cons seg rest ih =>
    rcases ih with none | ⟨before, last, idle, rfl, step, none⟩
    · cases step : stays seg with
      | true => exact .inl (by simpa [steps, step] using none)
      | false => exact .inr ⟨[], seg, rest, rfl, step, none⟩
    · exact .inr ⟨seg :: before, last, idle, rfl, step, none⟩

theorem innerSpans_idle (offset : Nat) (none : steps segs = []) : innerSpans offset segs = [] := by
  rw [← List.map_eq_nil_iff (f := Prod.fst), map_fst_innerSpans, none, List.map_nil]

theorem innerSpans_split (offset : Nat) (step : stays seg = false) (none : steps idle = []) :
    innerSpans offset (before ++ seg :: idle) =
      innerSpans offset before ++ [(stepTo seg, offset + (glue (before ++ [seg])).length)] := by
  rw [innerSpans_append, innerSpans, innerSpans_idle _ none, inner_eq, step, length_glue, List.append_nil,
    if_neg (by simp), Nat.add_assoc]

theorem parts_upTo_within (pieces : p.parts = before ++ seg :: idle) (inside : n ≤ seg.length) :
    (p.upTo (width before + n)).parts = before ++ [seg.take n] := by
  have opens : ∃ rest, glue (seg :: idle) = seg ++ rest := by
    cases idle with
    | nil => exact ⟨[], by simp [glue]⟩
    | cons next more => exact ⟨'/' :: glue (next :: more), by simp [glue, List.intercalate_cons_cons]⟩
  obtain ⟨rest, opens⟩ := opens
  have chars : p.text.toList.take (width before + n) = glue (before ++ [seg.take n]) := by
    rw [← glue_parts, pieces, glue_lead, glue_lead, ← length_lead, List.take_length_add_append, opens,
      List.take_append_of_le_length inside]
    simp [glue]
  rw [upTo, chars]
  refine parts_of_glue (by simp) fun piece member => ?_
  have free : ∀ piece ∈ p.parts, '/' ∉ piece := fun piece => no_slash
  rcases List.mem_append.mp member with early | last
  · exact free piece (by rw [pieces]; exact List.mem_append_left _ early)
  · rw [List.mem_singleton.mp last]
    exact fun slash => free seg (by simp [pieces]) (List.mem_of_mem_take slash)

theorem parts_upTo (pieces : p.parts = before ++ seg :: idle) :
    (p.upTo (glue (before ++ [seg])).length).parts = before ++ [seg] := by
  rw [length_glue, parts_upTo_within pieces (Nat.le_refl _), List.take_length]

theorem opening_upTo (pieces : p.parts = before ++ seg :: idle) (step : stays seg = false) :
    (p.upTo (glue (before ++ [seg])).length).opening = p.opening := by
  have nonempty : (glue (before ++ [seg])).length ≠ 0 := by
    rw [length_glue]
    cases seg with
    | nil => cases step
    | cons => simp
  have absolute : (p.upTo (glue (before ++ [seg])).length).isAbsolute = p.isAbsolute := by
    rw [isAbsolute, isAbsolute, upTo, String.toList_ofList, List.head?_take, if_neg nonempty]
  have first : (before ++ [seg]).head? = (before ++ seg :: idle).head? := by
    cases before <;> rfl
  rw [opening, opening, absolute, parts_upTo pieces, pieces, first]

theorem steps_append (a b : List (List Char)) : steps (a ++ b) = steps a ++ steps b := List.filter_append _ _

theorem steps_singleton (step : stays seg = false) : steps [seg] = [seg] := by
  simp [steps, step]

theorem steps_last (step : stays seg = false) (none : steps idle = []) :
    steps (before ++ seg :: idle) = steps before ++ [seg] := by
  rw [steps_append, ← List.singleton_append, steps_append, steps_singleton step, none, List.append_nil]

-- Behind the opening, the first character of a path is all of it.
theorem upTo_opening (opens : p.opening = [(c, 1)]) : (p.upTo 1).text = c.text ∧ (c = .root ∨ c = .current) := by
  unfold opening at opens
  split at opens
  · rename_i absolute
    cases opens
    refine ⟨?_, .inl rfl⟩
    unfold isAbsolute at absolute
    cases chars : p.text.toList with
    | nil => simp [chars] at absolute
    | cons first rest =>
      have slash : first = '/' := by simpa [chars] using absolute
      simp [upTo, chars, slash, Component.text]
  · split at opens
    · rename_i dot
      cases opens
      refine ⟨?_, .inr rfl⟩
      obtain ⟨first, rest, pieces⟩ := List.exists_cons_of_ne_nil p.parts_ne_nil
      rw [pieces] at dot
      cases dot
      have whole := p.glue_parts
      rw [pieces] at whole
      cases rest with
      | nil =>
        rw [upTo, ← whole]
        rfl
      | cons next more =>
        rw [glue, List.intercalate_cons_cons] at whole
        rw [upTo, ← whole]
        rfl
    · cases opens

-- What the parent of a path is: nothing, the opening alone, or the path cut behind its last step but one.
theorem parent?_cases (p : Path) :
    (steps p.parts = [] ∧ (p.parent? = none ∨ p.parent? = some ⟨""⟩)) ∨
    ∃ before seg idle, p.parts = before ++ seg :: idle ∧ stays seg = false ∧ steps idle = [] ∧
      ((steps before = [] ∧ ((p.opening = [] ∧ p.parent? = some ⟨""⟩) ∨
        ∃ c, p.opening = [(c, 1)] ∧ p.parent? = some ⟨c.text⟩)) ∨
      ∃ before' seg' idle', before = before' ++ seg' :: idle' ∧ stays seg' = false ∧ steps idle' = [] ∧
        p.parent? = some (p.upTo (glue (before' ++ [seg'])).length)) := by
  rcases split_last p.parts with none | ⟨before, seg, idle, pieces, step, none⟩
  · refine .inl ⟨none, ?_⟩
    unfold parent?
    rw [spans_eq, innerSpans_idle 0 none, List.append_nil]
    rcases p.opening_cases with ⟨-, opens⟩ | ⟨-, opens | opens⟩ <;> simp [opens]
  · refine .inr ⟨before, seg, idle, pieces, step, none, ?_⟩
    have found : p.parent? = ((p.opening ++ innerSpans 0 before).reverse.head?.map fun span => p.upTo span.2).or
        (some ⟨""⟩) := by
      unfold parent?
      rw [spans_eq, pieces, innerSpans_split 0 step none, ← List.append_assoc, List.reverse_append]
      generalize (p.opening ++ innerSpans 0 before).reverse = rest
      cases kind : stepTo seg with
      | root => exact absurd kind (stepTo_ne seg).1
      | current | parent | name => cases rest <;> rfl
    rw [found]
    rcases split_last before with none' | ⟨before', seg', idle', rfl, step', none'⟩
    · refine .inl ⟨none', ?_⟩
      rw [innerSpans_idle 0 none', List.append_nil]
      rcases p.opening_cases with ⟨-, opens⟩ | ⟨-, opens | opens⟩
      · exact .inr ⟨_, opens, by rw [opens, ← (upTo_opening opens).1]; rfl⟩
      · exact .inr ⟨_, opens, by rw [opens, ← (upTo_opening opens).1]; rfl⟩
      · exact .inl ⟨opens, by rw [opens]; rfl⟩
    · refine .inr ⟨before', seg', idle', rfl, step', none', ?_⟩
      rw [innerSpans_split 0 step' none', ← List.append_assoc, List.reverse_append]
      simp

theorem components_parentD (p : Path) : p.parentD.components = p.components.dropLast := by
  have single : ∀ c, (c = .root ∨ c = .current) → (⟨c.text⟩ : Path).components = [c] := by
    rintro c (rfl | rfl) <;> rfl
  rw [components_eq p]
  rcases p.parent?_cases with ⟨none, either⟩ | ⟨before, seg, idle, pieces, step, none, cases⟩
  · have empty : p.parentD = ⟨""⟩ := by
      unfold parentD
      rcases either with nothing | top <;> simp [*]
    rw [empty, none]
    rcases p.opening_cases with ⟨-, opens⟩ | ⟨-, opens | opens⟩ <;> rw [opens] <;> rfl
  · rw [pieces, steps_last step none, List.map_append, ← List.append_assoc]
    simp only [List.map_cons, List.map_nil, List.dropLast_concat]
    rcases cases with ⟨none', ⟨opens, found⟩ | ⟨c, opens, found⟩⟩ | ⟨before', seg', idle', rfl, step', none', found⟩
    · rw [parentD, found, none', opens]
      rfl
    · rw [parentD, found, none', opens]
      exact single c (upTo_opening opens).2
    · have pieces' : p.parts = before' ++ seg' :: (idle' ++ seg :: idle) := by simp [pieces]
      rw [parentD, found, Option.getD_some, components_eq, opening_upTo pieces' step', parts_upTo pieces',
        steps_last step' none', steps_append, steps_singleton step']

theorem parentD_same (same : p.Same q) : p.parentD.Same q.parentD := by
  rw [Same, components_parentD, components_parentD, same]

end ComponentAtlas.Path
