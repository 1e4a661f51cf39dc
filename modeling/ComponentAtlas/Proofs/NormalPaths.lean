import ComponentAtlas.Index
import ComponentAtlas.Proofs.OutputFiles

namespace ComponentAtlas
open Outline

namespace Path

variable {p q : Path}

def Component.IsStep : Component → Prop
  | .parent => True
  | .name file => IsName file
  | .root | .current => False

-- Stacks that no step can shorten by itself, newest component first.
inductive Reduced : List Component → Prop where
  | root : Reduced [.root]
  | climb (n : Nat) : Reduced (List.replicate n .parent)
  | name (named : IsName file) (below : Reduced done) : Reduced (.name file :: done)

variable {c : Component} {cs done : List Component}

theorem Reduced.step (reduced : Reduced done) (step : c.IsStep) : Reduced (normalStep done c) := by
  cases c with
  | root | current => exact step.elim
  | name file => exact .name step reduced
  | parent =>
    cases reduced with
    | root => exact .root
    | climb n =>
      cases n with
      | zero => exact .climb 1
      | succ n => exact .climb (n + 2)
    | name _ below => exact below

theorem Reduced.under (reduced : Reduced (.name file :: done)) : Reduced done := by
  generalize whole : Component.name file :: done = stack at reduced
  cases reduced with
  | root => cases whole
  | climb n => cases n <;> cases whole
  | name _ below => cases whole; exact below

theorem Reduced.foldl (reduced : Reduced done) (all : ∀ c ∈ cs, c.IsStep) : Reduced (cs.foldl normalStep done) := by
  induction cs generalizing done with
  | nil => exact reduced
  | cons c cs ih =>
    obtain ⟨first, later⟩ := List.forall_mem_cons.mp all
    exact ih (reduced.step first) later

-- Taking the steps of a reduced stack builds it again.
theorem Reduced.rebuilt (reduced : Reduced done) : done.reverse.foldl normalStep [] = done := by
  rw [List.foldl_reverse]
  induction reduced with
  | root => rfl
  | climb n =>
    induction n with
    | zero => rfl
    | succ n ih =>
      rw [List.replicate_succ, List.foldr_cons, ih]
      cases n <;> rfl
  | name _ _ ih => rw [List.foldr_cons, ih]; rfl

theorem Reduced.shape (reduced : Reduced done) : ∃ names : List String, (∀ file ∈ names, IsName file) ∧
    (done.reverse = .root :: names.map .name ∨ ∃ n, done.reverse = List.replicate n .parent ++ names.map .name) := by
  induction reduced with
  | root => exact ⟨[], nofun, .inl rfl⟩
  | climb n => exact ⟨[], nofun, .inr ⟨n, by simp⟩⟩
  | @name file done named _ ih =>
    obtain ⟨names, all, shape⟩ := ih
    refine ⟨names ++ [file], ?_, ?_⟩
    · intro other member
      rcases List.mem_append.mp member with early | last
      · exact all other early
      · rw [List.mem_singleton.mp last]
        exact named
    · rw [List.reverse_cons]
      rcases shape with shape | ⟨n, shape⟩
      · exact .inl (by simp [shape])
      · exact .inr ⟨n, by simp [shape]⟩

def stack (p : Path) : List Component := p.components.foldl normalStep []

def ground (p : Path) : List Component := if p.isAbsolute then [.root] else []

theorem isStep_stepTo (member : seg ∈ steps p.parts) : (stepTo seg).IsStep := by
  have listed : stepTo seg ∈ p.components := by
    rw [components_eq]
    exact List.mem_append_right _ (List.mem_map_of_mem member)
  have kinds := stepTo_ne seg
  cases kind : stepTo seg with
  | root => exact kinds.1 kind
  | current => exact kinds.2 kind
  | parent => trivial
  | name text => exact isName_of_mem (kind ▸ listed)

theorem stack_eq (p : Path) : p.stack = ((steps p.parts).map stepTo).foldl normalStep p.ground := by
  rw [stack, components_eq, List.foldl_append, ground]
  rcases p.opening_cases with ⟨absolute, opens⟩ | ⟨relative, opens | opens⟩
  · rw [opens, absolute]
    rfl
  · rw [opens, relative]
    rfl
  · rw [opens, relative]
    rfl

theorem reduced_stack (p : Path) : Reduced p.stack := by
  rw [stack_eq]
  refine Reduced.foldl ?_ fun c member => ?_
  · unfold ground
    split
    · exact .root
    · exact .climb 0
  · obtain ⟨seg, inside, rfl⟩ := List.mem_map.mp member
    exact isStep_stepTo inside

theorem normalize_eq (p : Path) : p.normalize = ofComponents p.stack.reverse := rfl

theorem Component.IsStep.piece {c : Component} (step : c.IsStep) :
    '/' ∉ c.text.toList ∧ stays c.text.toList = false ∧ stepTo c.text.toList = c := by
  cases c with
  | root | current => exact step.elim
  | parent => exact ⟨by decide, by decide, by decide⟩
  | name text => exact ⟨step.1, step_of_isName step⟩

theorem pieces_of_steps (all : ∀ c ∈ cs, c.IsStep) (pieces : segs = cs.map (·.text.toList)) :
    (∀ seg ∈ segs, '/' ∉ seg) ∧ (steps segs).map stepTo = cs := by
  subst pieces
  constructor
  · intro seg member
    obtain ⟨c, inside, rfl⟩ := List.mem_map.mp member
    exact (all c inside).piece.1
  · have kept : steps (cs.map (·.text.toList)) = cs.map (·.text.toList) := by
      refine List.filter_eq_self.mpr fun seg member => ?_
      obtain ⟨c, inside, rfl⟩ := List.mem_map.mp member
      rw [(all c inside).piece.2.1]
      rfl
    rw [kept, List.map_map]
    exact (List.map_congr_left fun c inside => (all c inside).piece.2.2).trans (List.map_id cs)

theorem components_of_steps (all : ∀ c ∈ cs, c.IsStep) :
    (⟨"/".intercalate (cs.map (·.text))⟩ : Path).components = cs := by
  cases cs with
  | nil => rfl
  | cons c cs =>
    obtain ⟨free, taken⟩ := pieces_of_steps all rfl
    have text : (⟨"/".intercalate ((c :: cs).map (·.text))⟩ : Path) =
        ⟨String.ofList (glue ((c :: cs).map (·.text.toList)))⟩ := by
      rw [Path.mk.injEq, ← String.toList_inj, String.toList_ofList, String.toList_intercalate, List.map_map]
      rfl
    have pieces := parts_of_glue (by simp) free
    rw [text, components_eq, pieces, taken, opening_of_step pieces (all c List.mem_cons_self).piece.2.1]
    rfl

theorem components_of_root (all : ∀ c ∈ cs, c.IsStep) :
    (⟨"/" ++ "/".intercalate (cs.map (·.text))⟩ : Path).components = .root :: cs := by
  cases cs with
  | nil => rfl
  | cons c cs =>
    obtain ⟨free, taken⟩ := pieces_of_steps all rfl
    have text : (⟨"/" ++ "/".intercalate ((c :: cs).map (·.text))⟩ : Path) =
        ⟨String.ofList (glue ([] :: (c :: cs).map (·.text.toList)))⟩ := by
      rw [Path.mk.injEq, ← String.toList_inj, String.toList_ofList, String.toList_append, String.toList_intercalate,
        List.map_map]
      rfl
    have pieces := parts_of_glue (List.cons_ne_nil _ _) (List.forall_mem_cons.mpr ⟨List.not_mem_nil, free⟩)
    have absolute : (⟨String.ofList (glue ([] :: (c :: cs).map (·.text.toList)))⟩ : Path).isAbsolute = true :=
      isAbsolute_iff.mpr ⟨_, _, pieces⟩
    have idle : steps ([] :: (c :: cs).map (·.text.toList)) = steps ((c :: cs).map (·.text.toList)) := rfl
    rw [text, components_eq, pieces, opening, absolute, idle, taken]
    rfl

theorem components_normalize (p : Path) : p.normalize.components = p.stack.reverse := by
  obtain ⟨names, all, shape⟩ := p.reduced_stack.shape
  have stepsOf : ∀ c ∈ names.map Component.name, c.IsStep := by
    intro c member
    obtain ⟨text, inside, rfl⟩ := List.mem_map.mp member
    exact all text inside
  rw [normalize_eq]
  rcases shape with shape | ⟨n, shape⟩
  · rw [shape]
    exact components_of_root stepsOf
  · have others : ∀ c ∈ p.stack.reverse, c.IsStep := by
      rw [shape]
      intro c member
      rcases List.mem_append.mp member with climb | name
      · rw [List.eq_of_mem_replicate climb]
        trivial
      · exact stepsOf c name
    have plain : ofComponents p.stack.reverse = ⟨"/".intercalate (p.stack.reverse.map (·.text))⟩ := by
      unfold ofComponents
      split
      · rename_i rest equal
        exact (others .root (equal ▸ List.mem_cons_self)).elim
      · rfl
    rw [plain]
    exact components_of_steps others

theorem stack_normalize (p : Path) : p.normalize.stack = p.stack := by
  rw [stack, components_normalize, p.reduced_stack.rebuilt]

-- No dots, and double dots only in front, where no root is.
structure Canonical (p : Path) : Prop where
  undotted : .current ∉ p.components
  climbs : ∃ n rest, p.components = List.replicate n .parent ++ rest ∧ .parent ∉ rest
  grounded : p.isAbsolute = true → .parent ∉ p.components

theorem isAbsolute_iff_root : p.isAbsolute = true ↔ .root ∈ p.components := by
  have inner : ∀ segs : List (List Char), .root ∉ segs.map stepTo := by
    intro segs member
    obtain ⟨seg, -, equal⟩ := List.mem_map.mp member
    exact (stepTo_ne seg).1 equal
  rw [components_eq, List.mem_append, or_iff_left (inner _)]
  rcases p.opening_cases with ⟨absolute, opens⟩ | ⟨relative, opens | opens⟩
  · simp [absolute, opens]
  · simp [relative, opens]
  · simp [relative, opens]

theorem root_mem_step (step : c.IsStep) : .root ∈ normalStep done c ↔ .root ∈ done := by
  cases c with
  | root | current => exact step.elim
  | name file => simp [normalStep]
  | parent =>
    cases done with
    | nil => simp [normalStep]
    | cons top below => cases top <;> simp [normalStep]

theorem root_mem_foldl (all : ∀ c ∈ cs, c.IsStep) : .root ∈ cs.foldl normalStep done ↔ .root ∈ done := by
  induction cs generalizing done with
  | nil => rfl
  | cons c cs ih =>
    obtain ⟨first, later⟩ := List.forall_mem_cons.mp all
    rw [List.foldl_cons, ih later, root_mem_step first]

theorem isAbsolute_normalize (p : Path) : p.normalize.isAbsolute = p.isAbsolute := by
  have all : ∀ c ∈ (steps p.parts).map stepTo, c.IsStep := by
    intro c member
    obtain ⟨seg, inside, rfl⟩ := List.mem_map.mp member
    exact isStep_stepTo inside
  rw [Bool.eq_iff_iff, isAbsolute_iff_root, components_normalize, List.mem_reverse, stack_eq, root_mem_foldl all, ground]
  cases p.isAbsolute <;> simp

theorem canonical_normalize (p : Path) : p.normalize.Canonical := by
  obtain ⟨names, -, shape⟩ := p.reduced_stack.shape
  rw [← components_normalize] at shape
  rcases shape with shape | ⟨n, shape⟩
  · exact ⟨by simp [shape], ⟨0, _, shape, by simp⟩, fun _ => by simp [shape]⟩
  · refine ⟨by simp [shape], ⟨n, _, shape, by simp⟩, fun absolute => ?_⟩
    have root := isAbsolute_iff_root.mp absolute
    simp [shape] at root

theorem normalize_normalize (p : Path) : p.normalize.normalize = p.normalize := by
  rw [normalize_eq p.normalize, stack_normalize, normalize_eq]

theorem foldl_components (relative : q.isAbsolute = false) (done : List Component) :
    q.components.foldl normalStep done = ((steps q.parts).map stepTo).foldl normalStep done := by
  rw [components_eq, List.foldl_append]
  rcases q.opening_cases with ⟨absolute, -⟩ | ⟨-, opens | opens⟩
  · rw [relative] at absolute
    cases absolute
  · rw [opens]
    rfl
  · rw [opens]
    rfl

-- A relative path goes on from the stack of the path that it is joined to.
theorem stack_join (p : Path) (relative : q.isAbsolute = false) :
    (p.join q).stack = q.components.foldl normalStep p.stack := by
  by_cases empty : p.text = ""
  · rw [join_of_empty q empty, stack, stack, components_eq_nil.mpr empty]
    rfl
  · obtain ⟨front, -, pieces, taken, -⟩ := join_parts empty relative
    rw [foldl_components relative, stack_eq, stack_eq, ground, isAbsolute_join empty relative, pieces, steps_append, taken,
      List.map_append, List.foldl_append]
    rfl

theorem join_of_stack (same : p.stack = q.stack) (x : Path) : (p.join x).normalize = (q.join x).normalize := by
  cases relative : x.isAbsolute with
  | true => rw [join_of_isAbsolute p relative, join_of_isAbsolute q relative]
  | false => rw [normalize_eq, normalize_eq, stack_join p relative, stack_join q relative, same]

theorem stack_same (same : p.Same q) : p.stack = q.stack := congrArg (List.foldl normalStep []) same

theorem components_parent (pieces : p.parts = before ++ seg :: idle) (step : stays seg = false) (none : steps idle = []) :
    p.parentD.components = p.opening.map (·.1) ++ (steps before).map stepTo := by
  rw [components_parentD, components_eq, pieces, steps_last step none, List.map_append, ← List.append_assoc]
  exact List.dropLast_concat

-- Paths that take one step each from the same pieces stand beside each other.
theorem parentD_same_of_front (one : p.parts = before ++ seg :: idle) (step : stays seg = false) (none : steps idle = [])
    (two : q.parts = before ++ seg' :: idle') (step' : stays seg' = false) (none' : steps idle' = []) :
    p.parentD.Same q.parentD := by
  have opens : p.opening = q.opening := by
    by_cases first : before = []
    · rw [opening_of_step (by rw [one, first]; rfl) step, opening_of_step (by rw [two, first]; rfl) step']
    · exact opening_of_front first one two (by simp) (by simp)
  rw [Same, components_parent one step none, components_parent two step' none', opens]

-- A step in place of a last piece that leads nowhere goes into the path.
theorem parentD_same_of_idle (one : p.parts = before ++ [seg]) (idle : stays seg = true) (named : p.fileName?.isSome)
    (two : q.parts = before ++ [seg']) (step : stays seg' = false) : q.parentD.Same p := by
  have nowhere : steps [seg] = [] := by simp [steps, idle]
  have some : before ≠ [] := by
    rintro rfl
    have still : steps p.parts = [] := by rw [one]; exact nowhere
    rw [fileName?, spans_eq, innerSpans_idle 0 still, List.append_nil] at named
    rcases p.opening_cases with ⟨-, opens⟩ | ⟨-, opens | opens⟩ <;> rw [opens] at named <;> cases named
  rw [Same, components_parent two step rfl, components_eq, opening_of_front some two one (by simp) (by simp), one,
    steps_append, nowhere, List.append_nil]

theorem stays_append (long : 1 < suffix.length) (seg : List Char) : stays (seg ++ suffix) = false := by
  have other : ∀ few : List Char, few.length ≤ 1 → seg ++ suffix ≠ few := by
    intro few short equal
    have lengths := congrArg List.length equal
    rw [List.length_append] at lengths
    omega
  simp only [stays, Bool.or_eq_false_iff, decide_eq_false_iff_not]
  exact ⟨other [] (by decide), other ['.'] (by decide)⟩

theorem found_stands (named : target.fileName?.isSome) (found : file ∈ sourceCandidates target) :
    file.parentD.Same target.parentD ∨ file.parentD.Same target := by
  have suffixed : ∀ suffix ∈ [".ts", ".tsx", ".d.ts"], '/' ∉ suffix.toList ∧ 1 < suffix.toList.length := by decide
  have emitted : ∀ suffix ∈ [".ts", ".d.ts", ".tsx"], suffix ∈ [".ts", ".tsx", ".d.ts"] := by decide
  have indexed : ∀ index ∈ ["index.ts", "index.tsx", "index.d.ts"], IsName index := by decide
  simp only [sourceCandidates, List.mem_append] at found
  rcases found with ((itself | emits) | suffixes) | indexes
  · rw [List.mem_singleton.mp itself]
    exact .inl rfl
  · split at emits
    · rename_i script
      obtain ⟨suffix, listed, rfl⟩ := List.mem_map.mp emits
      obtain ⟨free, long⟩ := suffixed suffix (emitted suffix listed)
      obtain ⟨before, seg, idle, pieces, step, none, cut⟩ := parts_withoutExtension script
      exact .inl (parentD_same_of_front (parts_withSuffix cut free) (stays_append long _) rfl pieces step none)
    · cases emits
  · obtain ⟨suffix, listed, rfl⟩ := List.mem_map.mp suffixes
    obtain ⟨free, long⟩ := suffixed suffix listed
    obtain ⟨before, seg, pieces⟩ := (List.eq_nil_or_concat' target.parts).resolve_left target.parts_ne_nil
    have pieces' := parts_withSuffix pieces free
    cases idle : stays seg with
    | false => exact .inl (parentD_same_of_front pieces' (stays_append long seg) rfl pieces idle rfl)
    | true => exact .inr (parentD_same_of_idle pieces idle named pieces' (stays_append long seg))
  · obtain ⟨index, listed, rfl⟩ := List.mem_map.mp indexes
    refine .inr ?_
    rw [Same, components_parentD, (components_joinText_iff target index).mpr (indexed index listed), List.dropLast_concat]

-- A way that specifiers lead from file to file, with the place that they compose as they are written: the directory of
-- the first file, then specifier after specifier, with a double dot behind each that led to a file and not to a
-- directory with an index in it.
inductive Route (origin : Path) : Path → Path → Prop where
  | start : Route origin origin origin.parentD
  | beside (earlier : Route origin file place) (leads : Target.ofSpecifier specifier file = .file target)
      (named : target.fileName?.isSome) (stands : found.parentD.Same target.parentD) :
      Route origin found ((place.joinText specifier).joinText "..")
  | inside (earlier : Route origin file place) (leads : Target.ofSpecifier specifier file = .file target)
      (stands : found.parentD.Same target) : Route origin found (place.joinText specifier)

theorem target_eq (leads : Target.ofSpecifier specifier file = .file target) :
    target = (file.parentD.joinText specifier).normalize := by
  unfold Target.ofSpecifier at leads
  split at leads
  · cases leads
    rfl
  · cases leads

theorem stack_top (named : p.normalize.fileName?.isSome) : ∃ file done, p.stack = .name file :: done := by
  rw [← Option.isSome_map (f := Prod.fst), fileName?_components, components_normalize, List.getLast?_reverse] at named
  cases top : p.stack with
  | nil => simp [top] at named
  | cons c done =>
    cases c with
    | name file => exact ⟨file, done, rfl⟩
    | root | current | parent => simp [top] at named

theorem stack_leave (named : p.normalize.fileName?.isSome) : (p.joinText "..").stack = p.normalize.parentD.stack := by
  obtain ⟨file, done, top⟩ := stack_top named
  have below : Reduced done := (top ▸ p.reduced_stack).under
  have left : p.normalize.parentD.stack = done := by
    rw [stack, components_parentD, components_normalize, top, List.reverse_cons, List.dropLast_concat, below.rebuilt]
  rw [left, joinText, stack_join p rfl, top]
  rfl

-- At each stop the composed place is the directory of the file, up to normal form.
theorem Route.stack_eq (route : Route origin file place) : file.parentD.stack = place.stack := by
  induction route with
  | start => rfl
  | @beside file place specifier target found _ leads named stands ih =>
    have target_eq : target = (place.joinText specifier).normalize := (target_eq leads).trans (join_of_stack ih _)
    subst target_eq
    rw [stack_same stands, stack_leave named]
  | @inside file place specifier target found _ leads stands ih =>
    have target_eq : target = (place.joinText specifier).normalize := (target_eq leads).trans (join_of_stack ih _)
    rw [stack_same stands, target_eq, stack_normalize]

end Path

open ComponentAtlas.Path (Route)

-- A normal form has no dots, double dots only in front and none behind a root; it is absolute when the path is, it is its
-- own normal form, and it stands for the path wherever another path is joined to it. So every file target is canonical,
-- and a way from file to file leads to the same target as its specifiers composed at one go; a file that is found for a
-- target stands beside it or in it.
theorem normalize_composes (p q : Path) :
    p.normalize.Canonical ∧ p.normalize.isAbsolute = p.isAbsolute ∧ p.normalize.normalize = p.normalize ∧
    (p.join q).normalize = (p.normalize.join q).normalize ∧
    (∀ specifier file target, Target.ofSpecifier specifier file = .file target →
      target.Canonical ∧ target.normalize = target ∧
      ∀ origin place, Route origin file place → target = (place.joinText specifier).normalize) ∧
    ∀ target found, target.fileName?.isSome → found ∈ sourceCandidates target →
      found.parentD.Same target.parentD ∨ found.parentD.Same target := by
  refine ⟨p.canonical_normalize, p.isAbsolute_normalize, p.normalize_normalize,
    Path.join_of_stack p.stack_normalize.symm q, fun specifier file target leads => ?_, fun _ _ => Path.found_stands⟩
  obtain rfl := Path.target_eq leads
  refine ⟨Path.canonical_normalize _, Path.normalize_normalize _, fun origin place route => ?_⟩
  exact Path.join_of_stack route.stack_eq _

theorem normalize_composes_tour : ∃ place, Route ⟨"src/app/main.ts"⟩ ⟨"src/lib/icons/index.ts"⟩ place ∧
    place.text = "src/app/../lib/util/.././icons" ∧
    Target.ofSpecifier "../../ui" ⟨"src/lib/icons/index.ts"⟩ = .file ⟨"src/ui"⟩ ∧
    (place.joinText "../../ui").normalize = ⟨"src/ui"⟩ := by
  have first : Target.ofSpecifier "../lib/util" ⟨"src/app/main.ts"⟩ = .file ⟨"src/lib/util"⟩ := by decide +kernel
  have second : Target.ofSpecifier "./icons" ⟨"src/lib/util.ts"⟩ = .file ⟨"src/lib/icons"⟩ := by decide +kernel
  have third : Target.ofSpecifier "../../ui" ⟨"src/lib/icons/index.ts"⟩ = .file ⟨"src/ui"⟩ := by decide +kernel
  have beside : (⟨"src/lib/util.ts"⟩ : Path).parentD.Same (⟨"src/lib/util"⟩ : Path).parentD := by decide +kernel
  have inside : (⟨"src/lib/icons/index.ts"⟩ : Path).parentD.Same ⟨"src/lib/icons"⟩ := by decide +kernel
  have route : Route ⟨"src/app/main.ts"⟩ ⟨"src/lib/icons/index.ts"⟩ _ :=
    .inside (.beside .start first (by decide +kernel) beside) second inside
  obtain ⟨-, -, -, -, targets, -⟩ := normalize_composes ⟨"src"⟩ ⟨"ui"⟩
  exact ⟨_, route, by decide +kernel, third, ((targets _ _ _ third).2.2 _ _ route).symm⟩

end ComponentAtlas
