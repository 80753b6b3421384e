import MdxCheck.Text.Basic

/-!
What is cut off the start of a text and what is left make the text.
-/

namespace MdxCheck.Text

theorem dropStart?_eq_some_iff {start text rest : Text} :
    dropStart? start text = some rest ↔ text = start ++ rest := by
  induction start generalizing text with
  | nil => simp [dropStart?, eq_comm]
  | cons s start ih =>
      cases text with
      | nil => simp [dropStart?]
      | cons c text =>
          by_cases same : s = c
          · simp [dropStart?, same, ih]
          · simp [dropStart?, same, Ne.symm same]

theorem eq_of_cut {stop : Char} {text before after : Text}
    (found : cut? stop text = some (before, after)) : text = before ++ stop :: after := by
  induction text generalizing before with
  | nil => simp [cut?] at found
  | cons c text ih =>
      rw [cut?] at found
      split at found
      · next same =>
          obtain ⟨rfl, rfl⟩ := Prod.mk.inj (Option.some.inj found)
          rw [same, List.nil_append]
      · obtain ⟨⟨front, back⟩, later, same⟩ := Option.map_eq_some_iff.mp found
        obtain ⟨rfl, rfl⟩ := Prod.mk.inj same
        rw [ih later, List.cons_append]

end MdxCheck.Text
