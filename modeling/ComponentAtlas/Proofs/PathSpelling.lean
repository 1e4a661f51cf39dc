import ComponentAtlas.Library
import ComponentAtlas.Proofs.FilePlaces
import Mathlib.Data.List.Forall2
import Mathlib.Data.List.TakeWhile

namespace ComponentAtlas
open ComponentAtlas.Path (stays steps parts glue width)

namespace Path

variable {p q : Path}

-- Paths that end in `tail` behind pieces that take the same steps from the same start.
structure Below (tail : List (List Char)) (p q : Path) : Prop where
  opens : p.opening = q.opening
  some : tail ≠ []
  fronts : ∃ front back, p.parts = front ++ tail ∧ q.parts = back ++ tail ∧ steps front = steps back ∧
    (front = [] ↔ back = [])

theorem eq_of_parts (equal : p.parts = q.parts) : p = q := by
  have chars : p.text.toList = q.text.toList := by rw [← glue_parts, ← glue_parts, equal]
  obtain ⟨text⟩ := p
  obtain ⟨text'⟩ := q
  exact congrArg mk (String.toList_inj.mp chars)

theorem text_ne_of_step (step : steps p.parts ≠ []) : p.text ≠ "" := by
  intro empty
  have none := components_eq_nil.mpr empty
  rw [components_eq] at none
  simp [step] at none

theorem Below.refl (p : Path) : Below p.parts p p := ⟨rfl, p.parts_ne_nil, [], [], rfl, rfl, rfl, Iff.rfl⟩

theorem Below.same (below : Below tail p q) : p.Same q := by
  obtain ⟨front, back, one, two, taken, -⟩ := below.fronts
  refine same_iff.mpr ⟨below.opens, ?_⟩
  rw [one, two, steps_append, steps_append, taken]

-- Paths that are alike in some such way.
def Alike (p q : Path) : Prop := ∃ tail, Below tail p q

theorem Alike.refl (p : Path) : p.Alike p := ⟨_, .refl p⟩

theorem Alike.same (alike : p.Alike q) : p.Same q := by
  obtain ⟨tail, below⟩ := alike
  exact below.same

theorem join_below (same : p.Same q) (x : Path) : p.join x = q.join x ∨
    p.text ≠ "" ∧ q.text ≠ "" ∧ x.isAbsolute = false ∧ Below x.parts (p.join x) (q.join x) := by
  by_cases empty : p.text = ""
  · have empty' : q.text = "" := components_eq_nil.mp (same ▸ components_eq_nil.mpr empty)
    exact .inl (by rw [join_of_empty x empty, join_of_empty x empty'])
  · have full : q.text ≠ "" := fun empty' => empty (components_eq_nil.mp (same.trans (components_eq_nil.mpr empty')))
    cases relative : x.isAbsolute with
    | true => exact .inl (by rw [join_of_isAbsolute p relative, join_of_isAbsolute q relative])
    | false =>
      obtain ⟨opens, taken⟩ := same_iff.mp same
      obtain ⟨front, some, one, steps_eq, -⟩ := join_parts empty relative
      obtain ⟨back, some', two, steps_eq', -⟩ := join_parts full relative
      refine .inr ⟨empty, full, rfl, ?_, x.parts_ne_nil, front, back, one, two, ?_, by simp [some, some']⟩
      · rw [opening_join empty relative, opening_join full relative, opens]
      · rw [steps_eq, steps_eq', taken]

theorem join_alike (same : p.Same q) (x : Path) : (p.join x).Alike (q.join x) := by
  rcases join_below same x with equal | ⟨-, -, -, below⟩
  · rw [equal]
    exact .refl _
  · exact ⟨_, below⟩

theorem opening_of_step (pieces : p.parts = seg :: idle) (step : stays seg = false) : p.opening = [] := by
  have relative : p.isAbsolute = false := by
    rw [Bool.eq_false_iff, ne_eq, isAbsolute_iff, pieces]
    rintro ⟨next, more, equal⟩
    cases equal
    cases step
  rw [opening, relative, pieces]
  simp only [stays, Bool.or_eq_false_iff, decide_eq_false_iff_not] at step
  simp [step.2]

-- Where the last steps of two spellings are, the pieces in front of them take the same steps too.
theorem split_same (same : p.Same q) (one : p.parts = before ++ seg :: idle) (step : stays seg = false)
    (none : steps idle = []) (two : q.parts = before' ++ seg' :: idle') (step' : stays seg' = false)
    (none' : steps idle' = []) :
    seg = seg' ∧ steps before = steps before' ∧ (before = [] ↔ before' = []) := by
  obtain ⟨opens, taken⟩ := same_iff.mp same
  rw [one, two, steps_last step none, steps_last step' none'] at taken
  obtain ⟨equal, last⟩ := List.append_inj' taken rfl
  refine ⟨List.singleton_inj.mp last, equal, ?_, ?_⟩
  · rintro rfl
    have first := opening_of_step (by simpa using one) step
    exact front_nil (opens ▸ first) two (by simp) equal.symm
  · rintro rfl
    have first := opening_of_step (by simpa using two) step'
    exact front_nil (opens ▸ first) one (by simp) equal

theorem parts_withSuffix (pieces : p.parts = before ++ [seg]) (free : '/' ∉ suffix.toList) :
    (p.withSuffix suffix).parts = before ++ [seg ++ suffix.toList] := by
  have text : (p.withSuffix suffix) = ⟨String.ofList (glue (before ++ [seg ++ suffix.toList]))⟩ := by
    have whole : glue (before ++ [seg ++ suffix.toList]) = glue (before ++ [seg]) ++ suffix.toList := by
      cases before with
      | nil => simp [glue]
      | cons first more =>
        rw [glue_append (by simp) (by simp), glue_append (by simp) (by simp)]
        simp [glue]
    rw [whole, ← pieces, glue_parts, withSuffix]
    simp
  rw [text]
  refine parts_of_glue (by simp) fun piece member => ?_
  have whole : ∀ piece ∈ p.parts, '/' ∉ piece := fun piece => no_slash
  rcases List.mem_append.mp member with early | last
  · exact whole piece (by rw [pieces]; exact List.mem_append_left _ early)
  · rw [List.mem_singleton.mp last, List.mem_append, not_or]
    exact ⟨whole seg (by simp [pieces]), free⟩

theorem Alike.withSuffix (alike : p.Alike q) (free : '/' ∉ suffix.toList) :
    (p.withSuffix suffix).Alike (q.withSuffix suffix) := by
  obtain ⟨tail, opens, some, front, back, one, two, taken, both⟩ := alike
  obtain ⟨before, seg, rfl⟩ := (List.eq_nil_or_concat' tail).resolve_left some
  rw [← List.append_assoc] at one two
  have one' := parts_withSuffix one free
  have two' := parts_withSuffix two free
  rw [List.append_assoc] at one one' two two'
  by_cases none : front = []
  · -- Nothing in front of the tail: the paths are one.
    obtain rfl : p = q := eq_of_parts (by rw [one, two, none, both.mp none])
    exact .refl _
  · have none' : back ≠ [] := fun empty => none (both.mpr empty)
    refine ⟨before ++ [seg ++ suffix.toList], ?_, by simp, front, back, one', two', taken, both⟩
    rw [← opening_of_front none one one' (by simp) (by simp), opens]
    exact opening_of_front none' two two' (by simp) (by simp)

theorem fileName?_split (pieces : p.parts = before ++ seg :: idle) (step : stays seg = false) (none : steps idle = []) :
    p.fileName? = if seg = ['.', '.'] then Option.none else some (String.ofList seg, width before + seg.length) := by
  rw [fileName?, spans_eq, pieces, innerSpans_split 0 step none, ← List.append_assoc, List.getLast?_concat, length_glue,
    Nat.zero_add, stepTo]
  by_cases up : seg = ['.', '.'] <;> simp [up]

theorem parts_withoutExtension (ends : p.extension? = some e) : ∃ before seg idle, p.parts = before ++ seg :: idle ∧
    stays seg = false ∧ steps idle = [] ∧
    p.withoutExtension.parts = before ++ [seg.take (seg.length - (e.toList.length + 1))] := by
  rcases split_last p.parts with none | ⟨before, seg, idle, pieces, step, none⟩
  · have unnamed : p.fileName? = Option.none := by
      rw [fileName?, spans_eq, innerSpans_idle 0 none, List.append_nil]
      rcases p.opening_cases with ⟨-, opens⟩ | ⟨-, opens | opens⟩ <;> rw [opens] <;> rfl
    rw [extension?, unnamed] at ends
    cases ends
  · refine ⟨before, seg, idle, pieces, step, none, ?_⟩
    have named := fileName?_split pieces step none
    split at named
    · rw [extension?, named] at ends
      cases ends
    · rw [extension?, named] at ends
      obtain ⟨behind, dotted, rfl⟩ := Option.map_eq_some_iff.mp ends
      rw [String.toList_ofList] at dotted
      have shorter : behind.length + 1 ≤ seg.length := by
        unfold extensionOf at dotted
        dsimp only at dotted
        split at dotted
        · cases dotted
          simp only [List.length_reverse]
          omega
        · cases dotted
      rw [withoutExtension, named]
      dsimp only
      rw [String.toList_ofList, dotted]
      dsimp only
      rw [String.toList_ofList, Nat.add_sub_assoc shorter]
      exact parts_upTo_within pieces (by omega)

theorem withoutExtension_alike (same : p.Same q) (ends : p.extension? = some e) :
    p.withoutExtension.Alike q.withoutExtension := by
  obtain ⟨before, seg, idle, one, step, none, cut⟩ := parts_withoutExtension ends
  obtain ⟨before', seg', idle', two, step', none', cut'⟩ := parts_withoutExtension (extension?_same same ▸ ends)
  obtain ⟨rfl, taken, both⟩ := split_same same one step none two step' none'
  by_cases empty : before = []
  · have equal : p.withoutExtension = q.withoutExtension := eq_of_parts (by rw [cut, cut', empty, both.mp empty])
    rw [equal]
    exact .refl _
  · have empty' : before' ≠ [] := fun empty' => empty (both.mpr empty')
    refine ⟨_, ?_, by simp, before, before', cut, cut', taken, both⟩
    rw [opening_of_front empty cut one (by simp) (by simp), (same_iff.mp same).1]
    exact opening_of_front empty' two cut' (by simp) (by simp)

end Path

namespace FileTree

variable {t : FileTree} {p q : Path}

theorem locate_alike (alike : p.Alike q) : t.locate p = t.locate q := by
  have same := alike.same
  obtain ⟨tail, -, some, front, back, one, two, taken, -⟩ := alike
  by_cases empty : p.text = ""
  · have empty' : q.text = "" := Path.components_eq_nil.mp (same ▸ Path.components_eq_nil.mpr empty)
    rw [locate, locate, locateSegments, locateSegments, empty, empty']
    rfl
  · have full : q.text ≠ "" := fun empty' =>
      empty (Path.components_eq_nil.mp (same.trans (Path.components_eq_nil.mpr empty')))
    rw [locate_eq empty, locate_eq full, start_same same, one, two, walk_steps _ front some, taken, ← walk_steps _ back some]

theorem isFile_alike (alike : p.Alike q) : t.isFile p = t.isFile q := by
  rw [isFile, isFile, lookup?, lookup?, locate_alike alike]

theorem isDirectory_alike (alike : p.Alike q) : t.isDirectory p = t.isDirectory q := by
  rw [isDirectory, isDirectory, lookup?, lookup?, locate_alike alike]

theorem readText_alike (alike : p.Alike q) : t.readText p = t.readText q := by
  rw [readText, readText, locate_alike alike]

end FileTree

theorem List.forall₂_map_same {R : β → β → Prop} {f g : α → β} {xs : List α} (related : ∀ x ∈ xs, R (f x) (g x)) :
    List.Forall₂ R (xs.map f) (xs.map g) := by
  rw [List.forall₂_map_left_iff, List.forall₂_map_right_iff]
  exact List.forall₂_same.mpr related

theorem sourceCandidates_alike {p q : Path} (alike : p.Alike q) :
    List.Forall₂ Path.Alike (sourceCandidates p) (sourceCandidates q) := by
  have same := alike.same
  unfold sourceCandidates
  rw [Path.extension?_same same]
  refine List.rel_append (List.rel_append (List.rel_append (.cons alike .nil) ?_) ?_) ?_
  · split
    · rename_i ends
      have cut := Path.withoutExtension_alike same (Path.extension?_same same ▸ ends)
      refine List.forall₂_map_same fun suffix member => cut.withSuffix ?_
      revert suffix
      decide
    · exact .nil
  · refine List.forall₂_map_same fun suffix member => alike.withSuffix ?_
    revert suffix
    decide
  · exact List.forall₂_map_same fun name member => Path.join_alike same _

theorem List.find?_forall₂ {R : α → α → Prop} {f : α → Bool} {xs ys : List α} (equal : ∀ x y, R x y → f x = f y)
    (related : List.Forall₂ R xs ys) :
    (xs.find? f = none ∧ ys.find? f = none) ∨ ∃ x y, xs.find? f = some x ∧ ys.find? f = some y ∧ R x y := by
  induction related with
  | nil => exact .inl ⟨rfl, rfl⟩
  | @cons x y _ _ first _ ih =>
    rw [List.find?_cons, List.find?_cons, ← equal x y first]
    cases f x with
    | true => exact .inr ⟨x, y, rfl, rfl, first⟩
    | false => exact ih

-- Paths that are alike stand for sources that are.
theorem FileTree.findSource_alike {t : FileTree} {p q : Path} (alike : p.Alike q) :
    Agrees (fun _ _ => True) t.Twin (t.findSource p) (t.findSource q) := by
  unfold findSource
  rcases List.find?_forall₂ (f := t.isFile) (fun _ _ => isFile_alike) (sourceCandidates_alike alike) with
    ⟨one, two⟩ | ⟨found, found', one, two, both⟩
  · rw [one, two]
    exact .error trivial
  · rw [one, two]
    exact .ok (.inr ⟨both.same, List.find?_some one, List.find?_some two⟩)

namespace FileTree

variable {t : FileTree} {p q : Path}

theorem dropTrailing_append (front : List (List Char)) (step : steps tail ≠ []) :
    dropTrailing (front ++ tail) = front ++ dropTrailing tail ∧ dropTrailing tail ≠ [] := by
  have some : tail.reverse.dropWhile (·.isEmpty) ≠ [] := by
    obtain ⟨seg, member⟩ := List.exists_mem_of_ne_nil _ step
    obtain ⟨inside, leads⟩ := List.mem_filter.mp member
    rw [ne_eq, List.dropWhile_eq_nil_iff]
    intro idle
    have empty := idle seg (List.mem_reverse.mpr inside)
    rw [List.isEmpty_iff.mp empty] at leads
    cases leads
  refine ⟨?_, by simpa [dropTrailing] using some⟩
  rw [dropTrailing, dropTrailing, List.reverse_append, List.dropWhile_append, if_neg (by simpa using some),
    List.reverse_append, List.reverse_reverse]

-- Where the common pieces lead somewhere, it is the same directory that is made.
theorem makeDirectory_below (below : Path.Below tail p q) (step : steps tail ≠ []) :
    t.makeDirectory p = t.makeDirectory q := by
  have same := below.same
  obtain ⟨front, back, one, two, taken, -⟩ := below.fronts
  have full : ∀ {x : Path} {front}, x.parts = front ++ tail → x.text ≠ "" := by
    intro x front pieces
    refine Path.text_ne_of_step ?_
    rw [pieces, Path.steps_append]
    simp [step]
  have segments : ∀ x : Path, Path.segments x.text.toList = x.parts := fun _ => rfl
  rw [makeDirectory, makeDirectory, locateSegments_eq (full one), locateSegments_eq (full two), segments, segments, one, two,
    (dropTrailing_append front step).1, (dropTrailing_append back step).1, start_same same,
    walk_steps _ front (dropTrailing_append front step).2, taken, ← walk_steps _ back (dropTrailing_append back step).2]

end FileTree

-- The parents of two spellings are one path, or end in the same step.
theorem Path.parent?_same {p q : Path} (same : p.Same q) (step : steps p.parts ≠ []) : p.parent? = q.parent? ∨
    ∃ above above' tail, p.parent? = some above ∧ q.parent? = some above' ∧ Below tail above above' ∧ steps tail ≠ [] := by
  obtain ⟨opens, taken⟩ := same_iff.mp same
  rcases p.parent?_cases with ⟨none, -⟩ | ⟨before, seg, idle, one, leads, none, kind⟩
  · exact absurd none step
  rcases q.parent?_cases with ⟨none', -⟩ | ⟨before', seg', idle', two, leads', none', kind'⟩
  · exact absurd (taken.trans none') step
  obtain ⟨-, equal, -⟩ := split_same same one leads none two leads' none'
  rcases kind with ⟨top, first⟩ | ⟨early, last, rest, rfl, stepped, idled, found⟩
  · rcases kind' with ⟨top', first'⟩ | ⟨early', last', rest', rfl, stepped', idled', found'⟩
    · left
      rw [← opens] at first'
      rcases first with ⟨bare, found⟩ | ⟨c, open1, found⟩ <;> rcases first' with ⟨bare', found'⟩ | ⟨c', open2, found'⟩
      · rw [found, found']
      · rw [bare] at open2
        cases open2
      · rw [bare'] at open1
        cases open1
      · rw [open1] at open2
        cases open2
        rw [found, found']
    · rw [top, steps_last stepped' idled'] at equal
      simp at equal
  · rcases kind' with ⟨top', -⟩ | ⟨early', last', rest', rfl, stepped', idled', found'⟩
    · rw [top', steps_last stepped idled] at equal
      simp at equal
    · right
      have pieces : p.parts = early ++ last :: (rest ++ seg :: idle) := by simp [one]
      have pieces' : q.parts = early' ++ last' :: (rest' ++ seg' :: idle') := by simp [two]
      have cut := parts_upTo pieces
      have cut' := parts_upTo pieces'
      have opens' : (p.upTo (glue (early ++ [last])).length).opening = (q.upTo (glue (early' ++ [last'])).length).opening := by
        rw [opening_upTo pieces stepped, opening_upTo pieces' stepped', opens]
      rw [steps_last stepped idled, steps_last stepped' idled'] at equal
      have same' : (p.upTo (glue (early ++ [last])).length).Same (q.upTo (glue (early' ++ [last'])).length) := by
        rw [same_iff, cut, cut', steps_append, steps_append, steps_singleton stepped, steps_singleton stepped']
        exact ⟨opens', equal⟩
      obtain ⟨rfl, taken', both⟩ := split_same same' cut stepped rfl cut' stepped' rfl
      exact ⟨_, _, [last], found, found', ⟨opens', by simp, early, early', cut, cut', taken', both⟩,
        by simp [steps_singleton stepped]⟩

namespace FileTree

variable {t : FileTree} {p q : Path}

-- Along the way up, which is the same from both spellings.
theorem makeDirectories_below (below : Path.Below tail p q) (step : steps tail ≠ []) (depth : Nat) :
    makeDirectories depth t p = makeDirectories depth t q := by
  induction depth generalizing t p q tail with
  | zero => rfl
  | succ depth ih =>
    have alike : p.Alike q := ⟨tail, below⟩
    have made : ∀ t : FileTree, t.makeDirectory p = t.makeDirectory q := fun t => makeDirectory_below below step
    have there : ∀ t : FileTree, t.isDirectory p = t.isDirectory q := fun t => isDirectory_alike alike
    have leads : steps p.parts ≠ [] := by
      obtain ⟨front, -, pieces, -⟩ := below.fronts
      rw [pieces, Path.steps_append]
      simp [step]
    have free : p.text.isEmpty = false := by simpa using Path.text_ne_of_step leads
    have free' : q.text.isEmpty = false := by
      simpa using Path.text_ne_of_step ((Path.same_iff.mp alike.same).2 ▸ leads)
    simp only [makeDirectories, free, free', made, there]
    rcases Path.parent?_same alike.same leads with equal | ⟨above, above', tail', one, two, higher, step'⟩
    · rw [equal]
    · rw [one, two]
      simp only [ih higher step']

theorem walk_idle (walked : t.walk place (steps segs) = .ok there) (directory : t.requireDirectory there = .ok ()) :
    t.walk place segs = .ok there := by
  have stay : ∀ x, t.walk x [['.']] = (t.requireDirectory x).bind fun _ => .ok x := fun x => walk_cons t x ['.'] []
  have both : t.walk place (segs ++ [['.']]) = t.walk place (steps segs ++ [['.']]) := walk_steps place segs (by simp)
  rw [walk_append, walk_append, walked] at both
  cases ended : t.walk place segs with
  | error e =>
    rw [ended] at both
    simp [Except.bind, stay, directory] at both
  | ok x =>
    rw [ended] at both
    simp only [Except.bind, stay, directory] at both
    cases asked : t.requireDirectory x with
    | error e => simp [asked] at both
    | ok => simpa [asked] using both

theorem steps_dropTrailing (segs : List (List Char)) : steps (dropTrailing segs) = steps segs := by
  have idle : ∀ l : List (List Char), steps (l.takeWhile (·.isEmpty)) = [] := by
    intro l
    refine List.filter_eq_nil_iff.mpr fun seg member => ?_
    rw [List.isEmpty_iff.mp (List.mem_takeWhile_imp member)]
    decide
  have split := List.takeWhile_append_dropWhile (p := (·.isEmpty)) (l := segs.reverse)
  have whole : segs = dropTrailing segs ++ (segs.reverse.takeWhile (·.isEmpty)).reverse := by
    rw [dropTrailing, ← List.reverse_append, split, List.reverse_reverse]
  have none : steps (segs.reverse.takeWhile (·.isEmpty)).reverse = [] := by
    rw [steps, List.filter_reverse]
    exact congrArg List.reverse (idle _)
  conv_rhs => rw [whole, Path.steps_append, none, List.append_nil]

theorem entry_of_requireDirectory (directory : t.requireDirectory place = .ok ()) : t.entry? place = some .directory := by
  unfold requireDirectory at directory
  split at directory
  · assumption
  · cases directory
  · cases directory

-- Something below a directory was found, so it is there.
theorem directory_of_locate {d x : Path} (full : d.text ≠ "") (relative : x.isAbsolute = false)
    (located : t.locate (d.join x) = .ok place) :
    ∃ there, t.walk (t.start d) (steps d.parts) = .ok there ∧ t.requireDirectory there = .ok () := by
  obtain ⟨front, -, pieces, taken, -⟩ := Path.join_parts full relative
  obtain ⟨seg, more, some⟩ := List.exists_cons_of_ne_nil x.parts_ne_nil
  rw [locate_eq (text_of_locate located), pieces, walk_steps _ front x.parts_ne_nil, taken, walk_append, start,
    Path.isAbsolute_join full relative, ← start, some] at located
  cases walked : t.walk (t.start d) (steps d.parts) with
  | error e => rw [walked] at located; cases located
  | ok there =>
    rw [walked] at located
    have asked : (t.requireDirectory there).bind _ = _ := (walk_cons t there seg more).symm.trans located
    cases directory : t.requireDirectory there with
    | error e => rw [directory] at asked; cases asked
    | ok => exact ⟨there, rfl, directory⟩

-- A directory that is there already is left alone, however it is spelled.
theorem createDirectories_idle {d x : Path} (full : d.text ≠ "") (relative : x.isAbsolute = false)
    (idle : steps x.parts = []) (walked : t.walk (t.start d) (steps d.parts) = .ok there)
    (directory : t.requireDirectory there = .ok ()) : t.createDirectories (d.join x) = .ok t := by
  obtain ⟨front, some, pieces, taken, -⟩ := Path.join_parts full relative
  have same : steps (d.join x).parts = steps d.parts := by rw [pieces, Path.steps_append, taken, idle, List.append_nil]
  have full' : (d.join x).text ≠ "" := by
    intro empty
    have one : (d.join x).parts = [[]] := by rw [parts, empty]; rfl
    rw [one] at pieces
    obtain ⟨seg, more, rfl⟩ := List.exists_cons_of_ne_nil some
    obtain ⟨seg', more', some'⟩ := List.exists_cons_of_ne_nil x.parts_ne_nil
    rw [some'] at pieces
    simp at pieces
  have start_eq : t.start (d.join x) = t.start d := by rw [start, start, Path.isAbsolute_join full relative]
  have located : t.locate (d.join x) = .ok there := by
    rw [locate_eq full', start_eq]
    exact walk_idle (same ▸ walked) directory
  have located' : t.locateSegments (d.join x) (dropTrailing (Path.segments (d.join x).text.toList)) = .ok there := by
    rw [locateSegments_eq full', start_eq]
    refine walk_idle ?_ directory
    rw [steps_dropTrailing]
    exact same ▸ walked
  have entry := entry_of_requireDirectory directory
  have made : t.makeDirectory (d.join x) = .error .alreadyExists := by
    rw [makeDirectory, located']
    dsimp only
    rw [entry]
  have present : t.isDirectory (d.join x) = true := by
    rw [isDirectory, lookup?, located]
    simpa using entry
  have free : (d.join x).text.isEmpty = false := by simpa using full'
  rw [createDirectories, makeDirectories, free, made, present]
  rfl

-- Where a file is found below a directory, both spellings of it lead to the same directories being made.
theorem createDirectories_join {d d' : Path} (same : d.Same d') (relative : x.isAbsolute = false)
    (located : t.locate (d.join x) = .ok place) (out : Path) :
    t.createDirectories (d.join out) = t.createDirectories (d'.join out) := by
  rcases Path.join_below same out with equal | ⟨full, full', relative', below⟩
  · rw [equal]
  · by_cases idle : steps out.parts = []
    · obtain ⟨there, walked, directory⟩ := directory_of_locate full relative located
      have walked' : t.walk (t.start d') (steps d'.parts) = .ok there := by
        rw [← start_same same, ← (Path.same_iff.mp same).2]
        exact walked
      rw [createDirectories_idle full relative' idle walked directory,
        createDirectories_idle full' relative' idle walked' directory]
    · have deep : (d.join out).components = (d'.join out).components := below.same
      rw [createDirectories, createDirectories, deep]
      exact makeDirectories_below below idle _

end FileTree
end ComponentAtlas
