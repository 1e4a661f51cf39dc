import ComponentAtlas.Outline.DocComment
import Mathlib.Data.List.Basic
import Mathlib.Data.List.TakeWhile

namespace ComponentAtlas.Outline.DocComment
open Text (isBlank trim trimLeft trimRight)

variable {cs indent line text : List Char} {lines : List (List Char)}

def starred (indent line : List Char) : List Char := indent ++ [' ', '*', ' '] ++ line

def layout (indent : List Char) (lines : List (List Char)) : List Char :=
  ['/', '*', '*', '\n'] ++ lines.flatMap (fun line => starred indent line ++ ['\n']) ++ indent ++ [' ', '*', '/']

-- No blank at either end, where there is an end.
structure Trimmed (cs : List Char) : Prop where
  left : ∀ c ∈ cs.head?, isBlank c = false
  right : ∀ c ∈ cs.getLast?, isBlank c = false

theorem dropWhile_blanks (blanks : ∀ c ∈ indent, isBlank c = true) (rest : List Char) :
    (indent ++ rest).dropWhile isBlank = rest.dropWhile isBlank := by
  rw [List.dropWhile_append, List.dropWhile_eq_nil_iff.mpr blanks]
  simp

theorem dropWhile_solid (solid : ∀ c ∈ cs.head?, isBlank c = false) : cs.dropWhile isBlank = cs := by
  cases cs with
  | nil => rfl
  | cons c rest => simp [solid c rfl]

theorem trimRight_blanks (blanks : ∀ c ∈ indent, isBlank c = true) (cs : List Char) :
    trimRight (cs ++ indent) = trimRight cs := by
  unfold trimRight
  rw [List.reverse_append, dropWhile_blanks]
  intro c member
  exact blanks c (List.mem_reverse.mp member)

theorem trimRight_solid (solid : ∀ c ∈ cs.getLast?, isBlank c = false) : trimRight cs = cs := by
  unfold trimRight
  rw [dropWhile_solid, List.reverse_reverse]
  simpa using solid

-- Only blanks around a trimmed text go.
theorem trim_between (left : ∀ c ∈ indent, isBlank c = true) (trimmed : Trimmed cs)
    (right : ∀ c ∈ line, isBlank c = true) : trim (indent ++ cs ++ line) = cs := by
  unfold trim trimLeft
  rw [List.append_assoc, dropWhile_blanks left]
  by_cases empty : cs = []
  · subst empty
    rw [List.nil_append, List.dropWhile_eq_nil_iff.mpr right]
    rfl
  · have head : (cs ++ line).head? = cs.head? := List.head?_append_of_ne_nil cs empty
    rw [dropWhile_solid (head ▸ trimmed.left), trimRight_blanks right, trimRight_solid trimmed.right]

theorem splitLines_line (free : '\n' ∉ line) (rest : List Char) :
    splitLines (line ++ '\n' :: rest) = line :: splitLines rest := by
  induction line with
  | nil => simp [splitLines]
  | cons c more ih =>
    obtain ⟨differs, free⟩ := List.ne_and_not_mem_of_not_mem_cons free
    rw [List.cons_append, splitLines, if_neg (Ne.symm differs), ih free]

theorem splitLines_last (free : '\n' ∉ line) : splitLines line = [line] := by
  induction line with
  | nil => rfl
  | cons c more ih =>
    obtain ⟨differs, free⟩ := List.ne_and_not_mem_of_not_mem_cons free
    rw [splitLines, if_neg (Ne.symm differs), ih free]

theorem splitLines_lines (free : ∀ line ∈ lines, '\n' ∉ line) (last : '\n' ∉ text) :
    splitLines (lines.flatMap (· ++ ['\n']) ++ text) = lines ++ [text] := by
  induction lines with
  | nil => exact splitLines_last last
  | cons line more ih =>
    obtain ⟨here, later⟩ := List.forall_mem_cons.mp free
    rw [List.flatMap_cons, List.append_assoc, List.append_assoc, List.singleton_append, splitLines_line here, ih later]
    rfl

theorem joinLines_cons (line : List Char) (present : lines ≠ []) :
    joinLines (line :: lines) = line ++ '\n' :: joinLines lines := by
  cases lines with
  | nil => exact absurd rfl present
  | cons next more => simp [joinLines, List.intercalate_cons_cons]

theorem joinLines_concat (present : lines ≠ []) (line : List Char) :
    joinLines (lines ++ [line]) = joinLines lines ++ '\n' :: line := by
  induction lines with
  | nil => exact absurd rfl present
  | cons first more ih =>
    by_cases none : more = []
    · subst none
      simp [joinLines]
    · rw [List.cons_append, joinLines_cons first (by simp), ih none, joinLines_cons first none, List.append_assoc,
        List.cons_append]

theorem cleanLine_starred (blanks : ∀ c ∈ indent, isBlank c = true) (right : ∀ c ∈ line.getLast?, isBlank c = false) :
    cleanLine (starred indent line) = line := by
  have space : isBlank ' ' = true := by decide
  have star : isBlank '*' = false := by decide
  have front : ∀ c ∈ indent ++ [' '], isBlank c = true := by
    intro c member
    rcases List.mem_append.mp member with early | last
    · exact blanks c early
    · exact List.mem_singleton.mp last ▸ space
  unfold cleanLine starred
  cases line with
  | nil =>
    have alone : Trimmed ['*'] := ⟨by simp [star], by simp [star]⟩
    have trimmed : trim (indent ++ [' '] ++ ['*'] ++ [' ']) = ['*'] := trim_between front alone (by simp [space])
    simp only [List.append_assoc, List.cons_append, List.nil_append, List.append_nil] at trimmed ⊢
    rw [trimmed]
    rfl
  | cons c rest =>
    have whole : Trimmed ('*' :: ' ' :: c :: rest) := ⟨by simp [star], by simpa using right⟩
    have trimmed : trim (indent ++ [' '] ++ ('*' :: ' ' :: c :: rest) ++ []) = '*' :: ' ' :: c :: rest :=
      trim_between front whole (by simp)
    simp only [List.append_assoc, List.cons_append, List.nil_append, List.append_nil] at trimmed ⊢
    rw [trimmed]
    rfl

theorem cleanLine_blanks (blanks : ∀ c ∈ indent, isBlank c = true) : cleanLine indent = [] := by
  have nothing : Trimmed [] := ⟨by simp, by simp⟩
  have trimmed : trim (indent ++ [] ++ []) = [] := trim_between blanks nothing (by simp)
  simp only [List.append_nil] at trimmed
  rw [cleanLine, trimmed]
  rfl

theorem dropDelimiters (indent : List Char) (lines : List (List Char)) :
    dropClosing (dropOpening (layout indent lines)) =
      ([] :: lines.map (starred indent)).flatMap (· ++ ['\n']) ++ (indent ++ [' ']) := by
  have opened : dropOpening (layout indent lines) =
      ([] :: lines.map (starred indent)).flatMap (· ++ ['\n']) ++ (indent ++ [' ']) ++ ['*', '/'] := by
    simp [layout, dropOpening, List.flatMap_map]
  rw [opened, dropClosing]
  simp [dropClosingReversed]

theorem splitLines_layout (spaces : ∀ c ∈ indent, c = ' ' ∨ c = '\t') (free : ∀ line ∈ lines, '\n' ∉ line) :
    splitLines (dropClosing (dropOpening (layout indent lines))) =
      ([] :: lines.map (starred indent)) ++ [indent ++ [' ']] := by
  have plain : '\n' ∉ indent := by
    intro member
    rcases spaces _ member with space | tab
    · exact absurd space (by decide)
    · exact absurd tab (by decide)
  rw [dropDelimiters, splitLines_lines]
  · intro piece member
    rcases List.mem_cons.mp member with rfl | later
    · simp
    · obtain ⟨line, inside, rfl⟩ := List.mem_map.mp later
      simp [starred, plain, free line inside]
  · simp [plain]

theorem blanks_of_spaces (spaces : ∀ c ∈ indent, c = ' ' ∨ c = '\t') : ∀ c ∈ indent, isBlank c = true := by
  intro c member
  rcases spaces c member with rfl | rfl
  · decide
  · decide

-- Every line of the layout, cleaned; the delimiters leave an empty line at each end.
theorem cleanLines_layout (blanks : ∀ c ∈ indent, isBlank c = true)
    (right : ∀ line ∈ lines, ∀ c ∈ line.getLast?, isBlank c = false) :
    (([] :: lines.map (starred indent)) ++ [indent ++ [' ']]).map cleanLine = [] :: lines ++ [[]] := by
  have closing : cleanLine (indent ++ [' ']) = [] := by
    refine cleanLine_blanks fun c member => ?_
    rcases List.mem_append.mp member with early | last
    · exact blanks c early
    · rw [List.mem_singleton.mp last]
      decide
  have inner : (lines.map (starred indent)).map cleanLine = lines := by
    rw [List.map_map]
    refine (List.map_congr_left fun line member => ?_).trans (List.map_id lines)
    exact cleanLine_starred blanks (right line member)
  rw [List.cons_append, List.map_cons, List.map_append, inner, List.map_singleton, closing]
  rfl

-- The ends of the joined text are those of its first and its last line.
theorem trimmed_joinLines (starts : lines.head? = some (c :: rest)) (solid : isBlank c = false)
    (ends : ∃ line ∈ lines.getLast?, line ≠ [] ∧ ∀ c ∈ line.getLast?, isBlank c = false) :
    Trimmed (joinLines lines) := by
  obtain ⟨last, final, filled, right⟩ := ends
  constructor
  · obtain ⟨more, rfl⟩ := List.head?_eq_some_iff.mp starts
    by_cases none : more = []
    · subst none
      simpa [joinLines] using solid
    · rw [joinLines_cons _ none]
      simpa using solid
  · obtain ⟨more, rfl⟩ := List.getLast?_eq_some_iff.mp final
    by_cases none : more = []
    · subst none
      simpa [joinLines] using right
    · rw [joinLines_concat none, List.getLast?_append_of_ne_nil _ (by simp), List.getLast?_cons_of_ne_nil filled]
      exact right

-- Cleaning undoes the usual layout: for every text whose lines have no blank at their end, whose first line starts and
-- whose last line ends with something visible, and for every indentation.
theorem clean_layout (spaces : ∀ c ∈ indent, c = ' ' ∨ c = '\t') (free : ∀ line ∈ lines, '\n' ∉ line)
    (right : ∀ line ∈ lines, ∀ c ∈ line.getLast?, isBlank c = false)
    (starts : lines.head? = some (c :: rest)) (solid : isBlank c = false) (ends : lines.getLast? ≠ some []) :
    clean (layout indent lines) = joinLines lines := by
  have present : lines ≠ [] := by
    intro none
    simp [none] at starts
  have trimmed : Trimmed (joinLines lines) := by
    refine trimmed_joinLines starts solid ⟨lines.getLast present, List.getLast?_eq_some_getLast present, ?_, ?_⟩
    · intro empty
      exact ends (empty ▸ List.getLast?_eq_some_getLast present)
    · exact right _ (List.getLast_mem present)
  have framed : joinLines ([] :: lines ++ [[]]) = ['\n'] ++ joinLines lines ++ ['\n'] := by
    rw [List.cons_append, joinLines_cons [] (by simp), joinLines_concat present]
    simp
  unfold clean
  rw [splitLines_layout spaces free, cleanLines_layout (blanks_of_spaces spaces) right, framed]
  have feed : ∀ c ∈ ['\n'], isBlank c = true := List.forall_mem_singleton.mpr rfl
  exact trim_between feed trimmed feed

theorem clean_layout_listing :
    clean (layout ['\t'] ["Keeps:".toList, [], "  * one".toList, "**".toList]) = "Keeps:\n\n  * one\n**".toList :=
  clean_layout (by simp) (by decide) (by simpa using ⟨rfl, rfl, rfl⟩) rfl rfl (by decide)

end ComponentAtlas.Outline.DocComment
