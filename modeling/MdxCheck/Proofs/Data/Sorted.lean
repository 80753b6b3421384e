import Mathlib.Order.Lattice

/-!
Putting items one by one into a list that stays in order and holds none of them twice.
-/

namespace MdxCheck

variable {α β : Type} [LinearOrder β]

/-- A way to put an item into an ordered list, where the place of an item is told by its key. The key
tells items apart that are of the kind to be kept. -/
structure Inserts (IsKept : α → Prop) (key : α → β) (insert : α → List α → List α) : Prop where
  injective : ∀ item other, IsKept item → IsKept other → key item = key other → item = other
  empty : ∀ item, insert item [] = [item]
  same : ∀ item items, insert item (item :: items) = item :: items
  earlier : ∀ item other items, key item < key other →
    insert item (other :: items) = item :: other :: items
  later : ∀ item other items, key other < key item →
    insert item (other :: items) = other :: insert item items

namespace Inserts

variable {IsKept : α → Prop} {key : α → β} {insert : α → List α → List α}
  (inserts : Inserts IsKept key insert)

include inserts

theorem mem_iff {item other : α} {items : List α} (kept : IsKept item)
    (allKept : ∀ item ∈ items, IsKept item) :
    other ∈ insert item items ↔ other = item ∨ other ∈ items := by
  induction items with
  | nil => simp [inserts.empty]
  | cons first rest ih =>
      obtain ⟨firstKept, restKept⟩ := List.forall_mem_cons.mp allKept
      rcases lt_trichotomy (key item) (key first) with less | equal | greater
      · rw [inserts.earlier item first rest less, List.mem_cons]
      · obtain rfl := inserts.injective _ _ kept firstKept equal
        simp [inserts.same]
      · rw [inserts.later item first rest greater, List.mem_cons, ih restKept, List.mem_cons]
        exact or_left_comm

theorem ordered {items : List α} {item : α} (kept : IsKept item)
    (allKept : ∀ item ∈ items, IsKept item)
    (inOrder : items.Pairwise fun first second => key first < key second) :
    (insert item items).Pairwise fun first second => key first < key second := by
  induction items with
  | nil =>
      rw [inserts.empty]
      exact List.pairwise_singleton _ _
  | cons first rest ih =>
      obtain ⟨firstKept, restKept⟩ := List.forall_mem_cons.mp allKept
      obtain ⟨below, restInOrder⟩ := List.pairwise_cons.mp inOrder
      rcases lt_trichotomy (key item) (key first) with less | equal | greater
      · rw [inserts.earlier item first rest less]
        refine List.pairwise_cons.mpr ⟨fun other member => ?_, inOrder⟩
        rcases List.mem_cons.mp member with rfl | later
        · exact less
        · exact less.trans (below other later)
      · obtain rfl := inserts.injective _ _ kept firstKept equal
        rwa [inserts.same]
      · rw [inserts.later item first rest greater]
        refine List.pairwise_cons.mpr ⟨fun other member => ?_, ih restKept restInOrder⟩
        rcases (inserts.mem_iff kept restKept).mp member with rfl | later
        · exact greater
        · exact below other later

end Inserts

end MdxCheck
