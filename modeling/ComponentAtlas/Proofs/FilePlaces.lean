import ComponentAtlas.FileTree
import ComponentAtlas.Outline.OfTree
import ComponentAtlas.Proofs.PathParts

namespace ComponentAtlas
open Outline
open ComponentAtlas.Path (stays steps parts)

namespace FileTree

variable {t : FileTree} {p q : Path}

def move (place : Location) (seg : List Char) : Location :=
  if seg = ['.', '.'] then place.dropLast else place ++ [String.ofList seg]

def start (t : FileTree) (p : Path) : Location := if p.isAbsolute then [] else t.workingDirectory

theorem walk_cons (t : FileTree) (place : Location) (seg : List Char) (rest : List (List Char)) :
    t.walk place (seg :: rest) =
      (t.requireDirectory place).bind fun _ => t.walk (if stays seg then place else move place seg) rest := by
  rw [walk]
  cases t.requireDirectory place with
  | error e => rfl
  | ok =>
    have idle : (decide (seg = []) || decide (seg = ['.'])) = stays seg := rfl
    dsimp only [Except.bind]
    rw [idle]
    cases stays seg with
    | true => rfl
    | false =>
      simp only [Bool.false_eq_true, if_false, move]
      split <;> rfl

theorem walk_append (t : FileTree) (place : Location) (front tail : List (List Char)) :
    t.walk place (front ++ tail) = (t.walk place front).bind (t.walk · tail) := by
  induction front generalizing place with
  | nil => rfl
  | cons seg rest ih =>
    rw [List.cons_append, walk_cons, walk_cons]
    cases t.requireDirectory place with
    | error e => rfl
    | ok => exact ih _

-- Only the steps in front of a piece count for where it leads.
theorem walk_steps (place : Location) (front : List (List Char)) (some : tail ≠ []) :
    t.walk place (front ++ tail) = t.walk place (steps front ++ tail) := by
  induction front generalizing place with
  | nil => rfl
  | cons seg rest ih =>
    rw [List.cons_append, walk_cons, ih]
    cases idle : stays seg with
    | true =>
      -- The directory that the idle piece asks for is asked for again by the piece behind it.
      have same : steps (seg :: rest) = steps rest := by simp [steps, idle]
      obtain ⟨next, more, pieces⟩ := List.exists_cons_of_ne_nil (l := steps rest ++ tail) (by simp [some])
      rw [if_pos rfl, same, pieces, walk_cons]
      cases t.requireDirectory place <;> rfl
    | false =>
      have same : steps (seg :: rest) = seg :: steps rest := by simp [steps, idle]
      rw [same, List.cons_append, walk_cons, idle]

theorem walk_ok (walked : t.walk place segs = .ok there) : there = (steps segs).foldl move place := by
  induction segs generalizing place with
  | nil => exact (Except.ok.inj walked).symm
  | cons seg rest ih =>
    rw [walk_cons] at walked
    cases directory : t.requireDirectory place with
    | error e => rw [directory] at walked; cases walked
    | ok =>
      rw [directory] at walked
      have later := ih walked
      cases idle : stays seg with
      | true => simpa [steps, idle] using later
      | false => simpa [steps, idle] using later

theorem requireDirectory_ok_iff : t.requireDirectory place = .ok () ↔ t.entry? place = some .directory := by
  unfold requireDirectory
  split <;> simp_all

-- The way to a last piece goes through a directory.
theorem directory_of_walk (walked : t.walk place (front ++ [seg]) = .ok there) :
    t.entry? ((steps front).foldl move place) = some .directory := by
  rw [walk_append] at walked
  cases led : t.walk place front with
  | error e => simp [led, Except.bind] at walked
  | ok middle =>
    rw [led, Except.bind, walk_cons] at walked
    rw [← walk_ok led]
    cases directory : t.requireDirectory middle with
    | error e => simp [directory, Except.bind] at walked
    | ok => exact requireDirectory_ok_iff.mp directory

theorem locateSegments_eq (full : p.text ≠ "") (segs : List (List Char)) :
    t.locateSegments p segs = t.walk (t.start p) segs := by
  have free : p.text.isEmpty = false := by simpa using full
  rw [locateSegments, free, if_neg (by simp), start]
  split <;> rfl

theorem locate_eq (full : p.text ≠ "") : t.locate p = t.walk (t.start p) p.parts := locateSegments_eq full _

theorem text_of_locate (found : t.locate p = .ok place) : p.text ≠ "" := by
  intro empty
  simp [locate, locateSegments, empty] at found

theorem start_same (same : p.Same q) : t.start p = t.start q := by
  rw [start, start, same.isAbsolute]

theorem locate_same (same : p.Same q) (one : t.locate p = .ok place) (two : t.locate q = .ok other) :
    place = other := by
  rw [locate_eq (text_of_locate one)] at one
  rw [locate_eq (text_of_locate two)] at two
  rw [walk_ok one, walk_ok two, start_same same, (Path.same_iff.mp same).2]

theorem locate_of_isFile (file : t.isFile p = true) : ∃ place, t.locate p = .ok place := by
  unfold isFile lookup? at file
  cases found : t.locate p with
  | ok place => exact ⟨place, rfl⟩
  | error e => rw [found] at file; cases file

theorem readText_same (same : p.Same q) (one : t.isFile p = true) (two : t.isFile q = true) :
    t.readText p = t.readText q := by
  obtain ⟨place, found⟩ := locate_of_isFile one
  obtain ⟨other, found'⟩ := locate_of_isFile two
  cases locate_same same found found'
  rw [readText, readText, found, found']

-- One path, or two spellings of one place that both lead to a file now.
def Twin (t : FileTree) (p q : Path) : Prop := p = q ∨ p.Same q ∧ t.isFile p = true ∧ t.isFile q = true

theorem Twin.same (twin : t.Twin p q) : p.Same q := by
  rcases twin with rfl | ⟨same, -⟩
  · rfl
  · exact same

theorem Twin.symm (twin : t.Twin p q) : t.Twin q p := by
  rcases twin with rfl | ⟨same, one, two⟩
  · exact .inl rfl
  · exact .inr ⟨Eq.symm same, two, one⟩

theorem Twin.trans (one : t.Twin p q) (two : t.Twin q r) : t.Twin p r := by
  rcases one with rfl | ⟨same, file, between⟩
  · exact two
  · rcases two with rfl | ⟨same', -, file'⟩
    · exact .inr ⟨same, file, between⟩
    · exact .inr ⟨Eq.trans same same', file, file'⟩

end FileTree

namespace Path

variable {p q : Path}

theorem fileName?_components (p : Path) :
    p.fileName?.map (·.1) = p.components.getLast?.bind fun | .name text => some text | _ => none := by
  rw [fileName?, components, List.getLast?_map]
  cases p.spans.getLast? with
  | none => rfl
  | some span =>
    obtain ⟨c, stop⟩ := span
    cases c <;> rfl

theorem extension?_eq (p : Path) :
    p.extension? = (p.fileName?.map (·.1)).bind fun name => (extensionOf name.toList).map String.ofList := by
  rw [extension?]
  cases p.fileName? <;> rfl

theorem extension?_same (same : p.Same q) : p.extension? = q.extension? := by
  rw [extension?_eq, extension?_eq, fileName?_components, fileName?_components, same]

end Path

-- Results that are both good or both bad, and related as such.
inductive Agrees {ε ε' α α' : Type} (bad : ε → ε' → Prop) (good : α → α' → Prop) :
    Except ε α → Except ε' α' → Prop where
  | ok (both : good a a') : Agrees bad good (.ok a) (.ok a')
  | error (both : bad e e') : Agrees bad good (.error e) (.error e')

structure Outline.SourceFile.Like (like : Path → Path → Prop) (file file' : SourceFile) : Prop where
  path : like file.path file'.path
  statements : file.statements = file'.statements

theorem Outline.outline_cases {p q : Path} (same : p.Same q) (text : String) :
    (∃ statements, outline p text = .ok { path := p, statements } ∧ outline q text = .ok { path := q, statements }) ∨
    ∃ line column reason, outline p text = .error (.malformed p line column reason) ∧
      outline q text = .error (.malformed q line column reason) := by
  have dialect : dialectOf p = dialectOf q := by rw [dialectOf, dialectOf, Path.extension?_same same]
  unfold outline
  rw [dialect]
  cases Source.parseTree (dialectOf q) text with
  | ok tree => exact .inl ⟨_, rfl, rfl⟩
  | error place => exact .inr ⟨_, _, _, rfl, rfl⟩

end ComponentAtlas
