import MdxCheck.Text.Basic

/-!
Texts joined at a separator and split at it again. What is free of the separator stands in one of
the pieces.
-/

namespace MdxCheck.Text

@[simp] theorem join_singleton (separator piece : Text) : join separator [piece] = piece := by
  simp [join, List.intercalate]

@[simp] theorem join_cons_cons (separator piece next : Text) (pieces : List Text) :
    join separator (piece :: next :: pieces) =
      piece ++ (separator ++ join separator (next :: pieces)) := by
  simp [join, List.intercalate]

theorem join_append {separator : Text} {front back : List Text} (some : front ≠ [])
    (more : back ≠ []) :
    join separator (front ++ back) =
      join separator front ++ (separator ++ join separator back) := by
  induction front with
  | nil => exact absurd rfl some
  | cons piece rest ih =>
      cases rest with
      | nil =>
          obtain ⟨next, others, rfl⟩ := List.exists_cons_of_ne_nil more
          simp
      | cons next others =>
          have joined := ih (by simp)
          simp only [List.cons_append, join_cons_cons] at joined ⊢
          simp [joined]

theorem join_concat_append (separator : Text) (pieces : List Text) (last further : Text) :
    join separator (pieces ++ [last ++ further]) =
      join separator (pieces ++ [last]) ++ further := by
  cases pieces with
  | nil => simp
  | cons piece pieces =>
      rw [join_append (by simp) (by simp), join_append (by simp) (by simp), join_singleton,
        join_singleton]
      simp

theorem not_mem_join {separator : Text} {c : Char} (other : c ∉ separator) {pieces : List Text}
    (free : ∀ piece ∈ pieces, c ∉ piece) : c ∉ join separator pieces := by
  induction pieces with
  | nil => exact List.not_mem_nil
  | cons piece pieces ih =>
      rw [List.forall_mem_cons] at free
      cases pieces with
      | nil => simpa using free.1
      | cons next pieces =>
          rw [join_cons_cons, List.mem_append, List.mem_append, not_or, not_or]
          exact ⟨free.1, other, ih free.2⟩

theorem splitOn_ne_nil (isSeparator : Char → Bool) (text : Text) :
    splitOn isSeparator text ≠ [] := by
  cases text with
  | nil => simp [splitOn]
  | cons c rest =>
      simp only [splitOn]
      split
      · simp
      · split <;> simp

theorem exists_splitOn_eq_concat (isSeparator : Char → Bool) (text : Text) :
    ∃ pieces last, splitOn isSeparator text = pieces ++ [last] := by
  rcases List.eq_nil_or_concat (splitOn isSeparator text) with none | ⟨pieces, last, split⟩
  · exact absurd none (splitOn_ne_nil isSeparator text)
  · exact ⟨pieces, last, by rw [split, List.concat_eq_append]⟩

section Separator

variable {separator : Char}

theorem splitOn_append (front back : Text) :
    splitOn (· == separator) (front ++ separator :: back) =
      splitOn (· == separator) front ++ splitOn (· == separator) back := by
  induction front with
  | nil =>
      cases pieces : splitOn (· == separator) back with
      | nil => exact absurd pieces (splitOn_ne_nil _ back)
      | cons piece others => simp [splitOn, pieces]
  | cons c front ih =>
      rw [List.cons_append, splitOn, ih, splitOn]
      cases pieces : splitOn (· == separator) front with
      | nil => exact absurd pieces (splitOn_ne_nil _ front)
      | cons piece others => by_cases same : c = separator <;> simp [same]

theorem splitOn_of_not_mem {piece : Text} (free : separator ∉ piece) :
    splitOn (· == separator) piece = [piece] := by
  induction piece with
  | nil => rfl
  | cons c piece ih =>
      simp only [List.mem_cons, not_or] at free
      rw [splitOn, ih free.2]
      simp [Ne.symm free.1]

theorem splitOn_join {pieces : List Text} (nonempty : pieces ≠ [])
    (free : ∀ piece ∈ pieces, separator ∉ piece) :
    splitOn (· == separator) (join [separator] pieces) = pieces := by
  induction pieces with
  | nil => exact absurd rfl nonempty
  | cons piece pieces ih =>
      rw [List.forall_mem_cons] at free
      cases pieces with
      | nil => rw [join_singleton, splitOn_of_not_mem free.1]
      | cons next pieces =>
          rw [join_cons_cons, List.singleton_append, splitOn_append,
            splitOn_of_not_mem free.1, ih (by simp) free.2, List.singleton_append]

theorem join_splitOn (separator : Char) (text : Text) :
    join [separator] (splitOn (· == separator) text) = text := by
  induction text with
  | nil => rfl
  | cons c text ih =>
      rw [splitOn]
      cases pieces : splitOn (· == separator) text with
      | nil => exact absurd pieces (splitOn_ne_nil _ text)
      | cons piece others =>
          rw [pieces] at ih
          have first : join [separator] ((c :: piece) :: others) =
              c :: join [separator] (piece :: others) := by
            cases others <;> simp
          dsimp only
          split
          · next same => simp [ih, eq_of_beq same]
          · rw [first, ih]

theorem join_eq_iff {pieces : List Text} (nonempty : pieces ≠ [])
    (free : ∀ piece ∈ pieces, separator ∉ piece) {text : Text} :
    join [separator] pieces = text ↔ pieces = splitOn (· == separator) text := by
  constructor
  · rintro rfl
    exact (splitOn_join nonempty free).symm
  · rintro rfl
    exact join_splitOn separator text

variable {part : Text} (free : separator ∉ part)

include free

theorem prefix_append_cons {front back : Text} :
    part <+: front ++ separator :: back ↔ part <+: front := by
  refine ⟨fun starts => ?_, fun starts => starts.trans (List.prefix_append _ _)⟩
  rcases List.prefix_or_prefix_of_prefix starts (List.prefix_append front _) with
    within | ⟨rest, rfl⟩
  · exact within
  · rw [List.prefix_append_right_inj] at starts
    cases rest with
    | nil => simp
    | cons c rest =>
        obtain rfl : c = separator := (List.cons_prefix_cons.mp starts).1
        simp at free

theorem prefix_join {piece : Text} {pieces : List Text} :
    part <+: join [separator] (piece :: pieces) ↔ part <+: piece := by
  cases pieces with
  | nil => rw [join_singleton]
  | cons next pieces => rw [join_cons_cons, List.singleton_append, prefix_append_cons free]

theorem suffix_append_cons {front back : Text} :
    part <:+ front ++ separator :: back ↔ part <:+ back := by
  rw [← List.reverse_prefix, ← List.reverse_prefix, List.reverse_append, List.reverse_cons,
    List.append_assoc, List.singleton_append]
  exact prefix_append_cons (by simpa using free)

theorem suffix_join {pieces : List Text} {piece : Text} :
    part <:+ join [separator] (pieces ++ [piece]) ↔ part <:+ piece := by
  cases pieces with
  | nil => rw [List.nil_append, join_singleton]
  | cons next pieces =>
      rw [join_append (by simp) (by simp), List.singleton_append, suffix_append_cons free,
        join_singleton]

end Separator

end MdxCheck.Text
