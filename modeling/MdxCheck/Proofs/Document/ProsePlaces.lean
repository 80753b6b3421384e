import MdxCheck.Proofs.Document.Prose

/-!
The places of the nodes of prose: each node stands at the first character of a line that is not
blank, and nodes follow one another as their lines do.
-/

namespace MdxCheck.Document

open Markdown (Token tokenLines)
open Position (lineStart)

theorem sourceAt_line (front rest : List Text) {lines : List Text} {number : Nat} {line : Text}
    (found : lines[number]? = some line) (column : Nat) :
    sourceAt (front ++ (lines ++ rest)) ⟨(front.length + 1 : Nat) + number, column + 1⟩ =
      line.drop column := by
  have inside := (List.getElem?_eq_some_iff.mp found).1
  have index : (((front.length + 1 : Nat) : Int) + number - 1).toNat = front.length + number := by
    omega
  have here : (front ++ (lines ++ rest))[front.length + number]? = some line := by
    rw [List.getElem?_append_right (by omega), Nat.add_sub_cancel_left,
      List.getElem?_append_left inside, found]
  have start : ((column : Int) + 1 - 1).toNat = column := by omega
  simp only [sourceAt, index, here, start, Option.getD_some]

theorem drop_indentWidth {line : Text} (solid : Text.isBlankText line = false) :
    ∃ c rest, line.drop (Text.indentWidth line) = c :: rest ∧ Text.isBlank c = false := by
  rw [Text.indentWidth, Text.drop_length_takeWhile]
  cases after : line.dropWhile Text.isBlank with
  | nil =>
      have blank := List.dropWhile_eq_nil_iff.mp after
      rw [show Text.isBlankText line = true from List.all_eq_true.mpr blank] at solid
      simp at solid
  | cons c rest =>
      have first := List.head?_dropWhile_not Text.isBlank line
      rw [after] at first
      exact ⟨c, rest, rfl, by simpa using first⟩

section

variable (front rest : List Text) {lines : List Text}

theorem trail_tokens {shown : Text → Text} {tokens : List Token}
    (sorted : (tokenLines tokens).Pairwise (· ≤ ·))
    (solid : ∀ number ∈ tokenLines tokens,
      ∃ line, lines[number]? = some line ∧ Text.isBlankText line = false) :
    Trail (front ++ (lines ++ rest)) (lineStart (front.length + 1))
      (lineStart (front.length + 1 + lines.length))
      (tokens.filterMap (tokenNode? (linePosition (front.length + 1) lines) shown ∘ Token.typed)) where
  advances := Position.lineStart_upTo (by omega)
  stands node member := by
    obtain ⟨token, inTokens, found⟩ := List.mem_filterMap.mp member
    obtain ⟨number, onLine, position, -, -, starts⟩ := tokenNode?_spec found
    obtain ⟨line, here, notBlank⟩ :=
      solid number (List.mem_filterMap.mpr ⟨token, inTokens, onLine⟩)
    have inside := (List.getElem?_eq_some_iff.mp here).1
    obtain ⟨c, others, first, isSolid⟩ := drop_indentWidth notBlank
    have column : linePosition (front.length + 1) lines number =
        ⟨(front.length + 1 : Nat) + number, Text.indentWidth line + 1⟩ := by
      simp [linePosition, here]
    refine ⟨_, ⟨position, ?_, ?_, ?_⟩, ?_, ?_⟩
    · simp only [column, List.length_append]
      omega
    · simp only [column]
      omega
    · rw [column, sourceAt_line front rest here, first]
      exact starts c others isSolid
    · simp only [Position.UpTo, lineStart, column]
      omega
    · simp only [Position.Before, lineStart, column]
      omega
  noData node member := by
    obtain ⟨token, -, found⟩ := List.mem_filterMap.mp member
    obtain ⟨-, -, -, -, noData, -⟩ := tokenNode?_spec found
    exact noData
  ordered := by
    rw [List.pairwise_filterMap]
    have byLine := List.pairwise_filterMap.mp sorted
    refine byLine.imp fun {token other} before node found next foundNext => ?_
    obtain ⟨number, onLine, position, noName, -⟩ := tokenNode?_spec found
    obtain ⟨later, onLater, positionNext, -, -⟩ := tokenNode?_spec foundNext
    have earlier := before number onLine later onLater
    refine ⟨_, _, position, positionNext, ?_, by simp [noName]⟩
    rcases Nat.lt_or_eq_of_le earlier with less | rfl
    · exact Or.inl (by simp only [linePosition]; omega)
    · exact .refl _

/-- Cleaning leaves the pieces of a text as they are, each cleaned for itself. -/
theorem splitOn_clean {pieces : List Text} (nonempty : pieces ≠ [])
    (noFeed : ∀ piece ∈ pieces, '\n' ∉ piece) :
    Text.splitOn (· == '\n') ((Text.unlines pieces).map Markdown.Blocks.cleanChar) =
      pieces.map (List.map Markdown.Blocks.cleanChar) := by
  have cleanFeed : ∀ c, Markdown.Blocks.cleanChar c = '\n' → c = '\n' := by
    intro c same
    simp only [Markdown.Blocks.cleanChar] at same
    split at same
    · exact absurd same (by decide)
    · exact same
  rw [Text.map_unlines (by decide)]
  apply Text.splitOn_unlines (by simpa using nonempty)
  intro cleaned member feed
  obtain ⟨piece, inside, rfl⟩ := List.mem_map.mp member
  obtain ⟨c, within, same⟩ := List.mem_map.mp feed
  obtain rfl := cleanFeed c same
  exact noFeed piece inside within

theorem noFeed_dedent (noFeed : ∀ line ∈ lines, '\n' ∉ line) : ∀ line ∈ dedent lines, '\n' ∉ line := by
  intro text member feed
  obtain ⟨line, inLines, rfl⟩ := List.mem_map.mp member
  split at feed
  · simp at feed
  · exact noFeed line inLines (List.mem_of_mem_drop feed)

/-- The Markdown of a run has a line for each line of the run. -/
theorem splitOn_proseText (noFeed : ∀ line ∈ lines, '\n' ∉ line) (nonempty : lines ≠ []) :
    Text.splitOn (· == '\n') ((proseText lines).map Markdown.Blocks.cleanChar) =
      (dedent lines).map (List.map Markdown.Blocks.cleanChar) :=
  splitOn_clean (by simpa [dedent] using nonempty) (noFeed_dedent noFeed)

theorem solid_of_dedent {number : Nat} (noFeed : ∀ line ∈ lines, '\n' ∉ line)
    (nonempty : lines ≠ [])
    (found : Markdown.Blocks.IsSolid (Text.splitOn (· == '\n')
      ((proseText lines).map Markdown.Blocks.cleanChar)) number) :
    ∃ line, lines[number]? = some line ∧ Text.isBlankText line = false := by
  obtain ⟨piece, here, holds⟩ := found
  rw [splitOn_proseText noFeed nonempty, List.getElem?_map, dedent, List.getElem?_map] at here
  cases line : lines[number]? with
  | none => simp [line] at here
  | some text =>
      refine ⟨text, rfl, ?_⟩
      by_contra blank
      simp only [Bool.not_eq_false] at blank
      simp [line, blank] at here
      exact holds here

theorem trail_prose (noFeed : ∀ line ∈ lines, '\n' ∉ line) :
    Trail (front ++ (lines ++ rest)) (lineStart (front.length + 1))
      (lineStart (front.length + 1 + lines.length))
      (Node.run (proseNodes (front.length + 1) lines)) := by
  have bounds : (lineStart (front.length + 1)).UpTo (lineStart (front.length + 1 + lines.length)) :=
    Position.lineStart_upTo (by omega)
  simp only [proseNodes]
  split
  next => exact .nil bounds
  next notBlank =>
    have nonempty : lines ≠ [] := by
      rintro rfl
      simp at notBlank
    have fits := Markdown.Blocks.ofText_fits (proseText lines)
    cases found : nodesFrom? (linePosition (front.length + 1) lines) _ [] []
        ((Markdown.Blocks.ofText (proseText lines)).tokens.map Token.typed) with
    | none => exact .nil bounds
    | some nodes =>
        have part := run_nodesFrom _ _ _ _ _ _ found
        rw [List.filterMap_map] at part
        have solid : ∀ number ∈ tokenLines (Markdown.Blocks.ofText (proseText lines)).tokens,
            ∃ line, lines[number]? = some line ∧ Text.isBlankText line = false := by
          intro number member
          exact solid_of_dedent noFeed nonempty (fits.within number member).2.2
        exact (trail_tokens front rest fits.sorted solid).sublist part.sublist

end

end MdxCheck.Document
