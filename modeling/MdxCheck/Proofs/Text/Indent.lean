import MdxCheck.Proofs.Text.LineEnds
import MdxCheck.Proofs.Text.Word
import Mathlib.Data.List.Basic

/-!
A text with its lines indented: spaces are put in front of those that are not blank.
-/

namespace MdxCheck.Text

/-- A line with so many spaces in front of it, unless it is blank. -/
def indentLine (count : Nat) (line : Text) : Text :=
  if isBlankText line then line else List.replicate count ' ' ++ line

/-- A text with so many spaces in front of each line that is not blank. -/
def indented (count : Nat) (text : Text) : Text :=
  (linesWithEnds text).flatMap (indentLine count)

/-! Spaces in front of a line. -/

theorem all_isBlank_spaces (count : Nat) : ∀ c ∈ List.replicate count ' ', isBlank c = true := by
  intro c member
  obtain rfl := List.eq_of_mem_replicate member
  decide

theorem isBlankText_spaces_append (count : Nat) (line : Text) :
    isBlankText (List.replicate count ' ' ++ line) = isBlankText line := by
  rw [isBlankText, List.all_append, List.all_eq_true.mpr (all_isBlank_spaces count),
    Bool.true_and, isBlankText]

theorem dropWhile_spaces_append (count : Nat) (line : Text) :
    (List.replicate count ' ' ++ line).dropWhile isBlank = line.dropWhile isBlank :=
  List.dropWhile_append_of_pos (all_isBlank_spaces count)

theorem trim_spaces_append (count : Nat) (line : Text) :
    trim (List.replicate count ' ' ++ line) = trim line := by
  rw [trim, trimStart, dropWhile_spaces_append, trim, trimStart]

theorem indentWidth_spaces_append (count : Nat) (line : Text) :
    indentWidth (List.replicate count ' ' ++ line) = indentWidth line + count := by
  rw [indentWidth, List.takeWhile_append_of_pos (all_isBlank_spaces count), List.length_append,
    List.length_replicate, Nat.add_comm, indentWidth]

theorem indentLine_of_solid (count : Nat) {line : Text} (solid : isBlankText line = false) :
    indentLine count line = List.replicate count ' ' ++ line := by
  simp [indentLine, solid]

@[simp] theorem isBlankText_indentLine (count : Nat) (line : Text) :
    isBlankText (indentLine count line) = isBlankText line := by
  simp only [indentLine]
  split
  · rfl
  · exact isBlankText_spaces_append count line

@[simp] theorem trim_indentLine (count : Nat) (line : Text) :
    trim (indentLine count line) = trim line := by
  simp only [indentLine]
  split
  · rfl
  · exact trim_spaces_append count line

@[simp] theorem dropWhile_indentLine (count : Nat) (line : Text) :
    (indentLine count line).dropWhile isBlank = line.dropWhile isBlank := by
  simp only [indentLine]
  split
  · rfl
  · exact dropWhile_spaces_append count line

theorem indentLine_append (count : Nat) (line : Text) {stop : Text}
    (blank : ∀ c ∈ stop, isBlank c = true) :
    indentLine count (line ++ stop) = indentLine count line ++ stop := by
  have same : isBlankText (line ++ stop) = isBlankText line := by
    rw [isBlankText, List.all_append, List.all_eq_true.mpr blank, Bool.and_true, isBlankText]
  simp only [indentLine, same]
  split <;> simp

theorem isLineEnd_indentLine (count : Nat) {line : Text}
    (solid : ∀ c ∈ line, isLineEnd c = false) :
    ∀ c ∈ indentLine count line, isLineEnd c = false := by
  intro c member
  simp only [indentLine] at member
  split at member
  · exact solid c member
  · rcases List.mem_append.mp member with space | inside
    · obtain rfl := List.eq_of_mem_replicate space
      decide
    · exact solid c inside

theorem head?_indentLine (count : Nat) (line : Text) :
    (indentLine count line).head? = line.head? ∨ (indentLine count line).head? = some ' ' := by
  simp only [indentLine]
  split
  · exact Or.inl rfl
  · cases count with
    | zero => exact Or.inl rfl
    | succ count => exact Or.inr rfl

theorem indentLine_ne_nil (count : Nat) {line : Text} (nonempty : line ≠ []) :
    indentLine count line ≠ [] := by
  simp only [indentLine]
  split
  · exact nonempty
  · exact List.append_ne_nil_of_right_ne_nil _ nonempty

/-! An indented text, line by line. -/

section

variable (count : Nat) {line stop rest : Text} (solid : ∀ c ∈ line, isLineEnd c = false)
  (stops : StopsLine stop rest)

include stops

theorem indentLine_append_stop : indentLine count (line ++ stop) = indentLine count line ++ stop :=
  indentLine_append count line fun c member => isBlank_of_isLineEnd (stops.isLineEnd c member)

include solid

theorem indented_append (nonempty : line ++ stop ≠ []) :
    indented count (line ++ (stop ++ rest)) =
      indentLine count (line ++ stop) ++ indented count rest := by
  rw [indented, linesWithEnds_append solid stops nonempty, List.flatMap_cons, indented]

end

theorem head?_indented (count : Nat) (text : Text) :
    (indented count text).head? = text.head? ∨ (indented count text).head? = some ' ' := by
  by_cases empty : text = []
  · exact Or.inl (by rw [empty]; rfl)
  · obtain ⟨line, stop, rest, rfl, solid, stops, nonempty⟩ := exists_line text empty
    rw [indented_append count solid stops nonempty, ← List.append_assoc,
      List.head?_append_of_ne_nil _ (indentLine_ne_nil count nonempty),
      List.head?_append_of_ne_nil _ nonempty]
    exact head?_indentLine count (line ++ stop)

theorem StopsLine.indented {stop rest : Text} (stops : StopsLine stop rest) (count : Nat) :
    StopsLine stop (indented count rest) := by
  cases stops with
  | last => exact .last
  | pair => exact .pair
  | single ends alone =>
      refine .single ends fun same => ?_
      rcases head?_indented count rest with head | head
      · rw [head]
        exact alone same
      · simp [head]

/-- The lines of an indented text are the lines of the text, indented. -/
theorem lines_indented (count : Nat) (text : Text) :
    lines (indented count text) = (lines text).map (indentLine count) := by
  induction bound : text.length using Nat.strongRecOn generalizing text with
  | ind length ih =>
      by_cases empty : text = []
      · rw [empty]
        rfl
      · obtain ⟨line, stop, rest, rfl, solid, stops, nonempty⟩ := exists_line text empty
        have shorter : rest.length < length := by
          have positive := List.length_pos_iff.mpr nonempty
          simp only [List.length_append] at bound positive
          omega
        have moved : indentLine count (line ++ stop) = indentLine count line ++ stop :=
          indentLine_append_stop count stops
        have still : indentLine count line ++ stop ≠ [] :=
          moved ▸ indentLine_ne_nil count nonempty
        rw [indented_append count solid stops nonempty, moved, List.append_assoc,
          lines_append (isLineEnd_indentLine count solid) (stops.indented count) still,
          lines_append solid stops nonempty, ih _ shorter rest rfl, List.map_cons]

end MdxCheck.Text
