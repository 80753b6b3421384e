import MdxCheck.Text.Lines
import MdxCheck.Text.Word
import Mathlib.Tactic.IntervalCases

/-!
The classes of characters and how they lie to each other: what ends a line is white space, and no
white space belongs to a word.
-/

namespace MdxCheck.Text

theorem isBlank_of_isLineEnd {c : Char} (ends : isLineEnd c = true) : isBlank c = true := by
  simp only [isLineEnd, isBlank, Bool.or_eq_true, Bool.and_eq_true, decide_eq_true_eq,
    beq_iff_eq] at ends ⊢
  omega

theorem isBlank_of_isAlpha {c : Char} (alpha : c.isAlpha = true) : isBlank c = false := by
  have ranges : (decide ('A'.val ≤ c.val ∧ c.val ≤ 'Z'.val) ||
      decide ('a'.val ≤ c.val) && decide (c.val ≤ 'z'.val)) = true := alpha
  simp only [Bool.or_eq_true, Bool.and_eq_true, decide_eq_true_eq,
    UInt32.le_iff_toNat_le] at ranges
  change 65 ≤ c.toNat ∧ c.toNat ≤ 90 ∨ 97 ≤ c.toNat ∧ c.toNat ≤ 122 at ranges
  simp only [isBlank, Bool.or_eq_false_iff, Bool.and_eq_false_iff, decide_eq_false_iff_not,
    beq_eq_false_iff_ne, ne_eq]
  omega

/-- The white-space characters beyond ASCII. -/
def wideBlanks : List Nat :=
  [0x85, 0xA0, 0x1680, 0x2000, 0x2001, 0x2002, 0x2003, 0x2004, 0x2005, 0x2006, 0x2007, 0x2008,
    0x2009, 0x200A, 0x2028, 0x2029, 0x202F, 0x205F, 0x3000]

theorem wideBlanks_not_alphanumeric :
    (wideBlanks.all fun n => !alphanumericTable.contains (Char.ofNat n)) = true := by
  rw [alphanumericTable, CharSet.ofTable, tableNumbers]
  simp only [String.toList_append]
  -- each literal of the table as the list of its characters, which the kernel can walk
  repeat rw [String.toList_ofList]
  decide +kernel

theorem mem_wideBlanks {c : Char} (blank : isBlank c = true) (wide : 128 ≤ c.toNat) :
    c.toNat ∈ wideBlanks := by
  simp only [isBlank, Bool.or_eq_true, Bool.and_eq_true, decide_eq_true_eq, beq_iff_eq] at blank
  simp only [wideBlanks, List.mem_cons, List.not_mem_nil, or_false]
  omega

theorem isWordChar_of_isBlank {c : Char} (blank : isBlank c = true) : isWordChar c = false := by
  by_cases wide : 128 ≤ c.toNat
  · have excluded := List.all_eq_true.mp wideBlanks_not_alphanumeric _ (mem_wideBlanks blank wide)
    rw [Char.ofNat_toNat] at excluded
    have notLow : ¬c.toNat < 128 := by omega
    have notLine : (c == '_') = false := by
      rw [beq_eq_false_iff_ne]
      rintro rfl
      exact notLow (by decide)
    simpa [isWordChar, isAlphanumeric, notLow, notLine] using excluded
  · simp only [isBlank, Bool.or_eq_true, Bool.and_eq_true, decide_eq_true_eq, beq_iff_eq] at blank
    have low : c.toNat ≤ 32 := by omega
    obtain ⟨code, same⟩ : ∃ code, c = Char.ofNat code ∧ code ≤ 32 :=
      ⟨c.toNat, (Char.ofNat_toNat c).symm, low⟩
    obtain ⟨rfl, bound⟩ := same
    interval_cases code <;> decide

end MdxCheck.Text
