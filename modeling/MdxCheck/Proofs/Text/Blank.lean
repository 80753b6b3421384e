import MdxCheck.Proofs.Text.Lines

/-!
Which texts are blank: trimming does not change it, and joined lines are blank if all of them are.
-/

namespace MdxCheck.Text

@[simp] theorem isBlankText_append (front back : Text) :
    isBlankText (front ++ back) = (isBlankText front && isBlankText back) :=
  List.all_append

theorem isBlankText_dropWhile (text : Text) :
    isBlankText (text.dropWhile isBlank) = isBlankText text := by
  have gap : isBlankText (text.takeWhile isBlank) = true := List.all_takeWhile
  have whole := isBlankText_append (text.takeWhile isBlank) (text.dropWhile isBlank)
  rwa [List.takeWhile_append_dropWhile, gap, Bool.true_and, eq_comm] at whole

theorem isBlankText_reverse (text : Text) : isBlankText text.reverse = isBlankText text :=
  List.all_reverse

@[simp] theorem isBlankText_trim (text : Text) : isBlankText (trim text) = isBlankText text := by
  rw [trim, trimEnd, isBlankText_reverse, isBlankText_dropWhile, isBlankText_reverse, trimStart,
    isBlankText_dropWhile]

theorem isBlankText_unlines (lines : List Text) :
    isBlankText (unlines lines) = lines.all isBlankText := by
  induction lines with
  | nil => rfl
  | cons line lines ih =>
      cases lines with
      | nil => simp
      | cons next lines =>
          have feed : isBlankText ('\n' :: unlines (next :: lines)) =
              isBlankText (unlines (next :: lines)) := rfl
          rw [unlines_cons_cons, isBlankText_append, feed, ih]
          rfl

end MdxCheck.Text
