import MdxCheck.Proofs.Data.Sorted
import MdxCheck.Rule.Identifiers
import Mathlib.Data.Char
import Mathlib.Data.List.Lex
import Mathlib.Data.List.Sort

/-!
Lists of identifiers by what they hold: each identifier with a property, once, in the order of the
code points.
-/

namespace MdxCheck

theorem Text.before_iff_lt (first second : Text) :
    Text.before first second = true ↔ first < second := by
  induction first generalizing second with
  | nil => cases second <;> simp [Text.before]
  | cons x first ih =>
      cases second with
      | nil => simp [Text.before]
      | cons y second =>
          have here : x.toNat < y.toNat ↔ x < y := Iff.rfl
          simp [Text.before, List.cons_lt_cons_iff, here, ih]

namespace Rule

/-- The identifiers with a property, strictly increasing by code point. -/
structure ListsIds (found : List Text) (property : Text → Prop) : Prop where
  ordered : found.Pairwise (· < ·)
  members : ∀ id, id ∈ found ↔ property id

namespace ListsIds

variable {found other : List Text} {property : Text → Prop}

theorem unique (left : ListsIds found property) (right : ListsIds other property) :
    found = other :=
  left.ordered.eq_of_mem_iff right.ordered fun id =>
    (left.members id).trans (right.members id).symm

theorem sublist {wider : Text → Prop} (left : ListsIds found property)
    (right : ListsIds other wider) (implies : ∀ id, property id → wider id) :
    found.Sublist other := by
  have distinct : found.Nodup := left.ordered.imp ne_of_lt
  have within : found ⊆ other := fun id member =>
    (right.members id).mpr (implies id ((left.members id).mp member))
  exact List.sublist_of_subperm_of_pairwise (List.subperm_of_subset distinct within) left.ordered
    right.ordered

theorem eq_nil_iff (lists : ListsIds found property) : found = [] ↔ ∀ id, ¬property id := by
  rw [List.eq_nil_iff_forall_not_mem]
  exact forall_congr' fun id => not_congr (lists.members id)

end ListsIds

theorem inserts_insertId : Inserts (fun _ => True) id insertId where
  injective _ _ _ _ := id
  empty _ := rfl
  same id ids := by simp [insertId]
  earlier id other ids less := by
    have before := (Text.before_iff_lt id other).mpr less
    have different : id ≠ other := ne_of_lt less
    simp [insertId, different, before]
  later id other ids less := by
    have notBefore : ¬Text.before id other = true := by
      rw [Text.before_iff_lt]
      exact lt_asymm less
    have different : id ≠ other := (ne_of_lt less).symm
    simp [insertId, different, notBefore]

theorem listsIds_distinctIds (ids : List Text) : ListsIds (distinctIds ids) (· ∈ ids) := by
  induction ids with
  | nil => exact ⟨.nil, fun _ => Iff.rfl⟩
  | cons id ids ih =>
      have kept : ∀ id ∈ distinctIds ids, True := fun _ _ => trivial
      refine ⟨inserts_insertId.ordered trivial kept ih.ordered, fun other => ?_⟩
      rw [List.mem_cons, ← ih.members other]
      exact inserts_insertId.mem_iff trivial kept

theorem listsIds_missingIds (ids others : List Text) :
    ListsIds (missingIds ids others) fun id => id ∈ ids ∧ id ∉ others where
  ordered := (listsIds_distinctIds _).ordered
  members id := by
    rw [missingIds, (listsIds_distinctIds _).members, List.mem_filter]
    simp

theorem listsIds_duplicateIds (ids : List Text) :
    ListsIds (duplicateIds ids) fun id => 2 ≤ ids.count id where
  ordered := (listsIds_distinctIds _).ordered
  members id := by
    rw [duplicateIds, (listsIds_distinctIds _).members, List.mem_filter, decide_eq_true_eq]
    constructor
    · rintro ⟨-, often⟩
      exact often
    · intro often
      exact ⟨List.count_pos_iff.mp (by omega), often⟩

theorem missingIds_eq_nil_iff (ids others : List Text) :
    missingIds ids others = [] ↔ ∀ id ∈ ids, id ∈ others := by
  rw [(listsIds_missingIds ids others).eq_nil_iff]
  exact forall_congr' fun id => by tauto

theorem duplicateIds_eq_nil_iff (ids : List Text) : duplicateIds ids = [] ↔ ids.Nodup := by
  rw [(listsIds_duplicateIds ids).eq_nil_iff, List.nodup_iff_count_le_one]
  exact forall_congr' fun id => by omega

theorem duplicateIds_eq_of_perm {ids others : List Text} (perm : ids.Perm others) :
    duplicateIds ids = duplicateIds others := by
  refine (listsIds_duplicateIds ids).unique ⟨(listsIds_duplicateIds others).ordered, fun id => ?_⟩
  rw [(listsIds_duplicateIds others).members, perm.count_eq]

theorem duplicateIds_sublist_append (ids more : List Text) :
    (duplicateIds ids).Sublist (duplicateIds (ids ++ more)) := by
  refine (listsIds_duplicateIds ids).sublist (listsIds_duplicateIds (ids ++ more)) fun id often => ?_
  rw [List.count_append]
  omega

/-- The identifiers that occur at least twice are listed once each, strictly increasing by code point,
and no other list does this. So the order of the input does not matter, nothing is listed exactly if
no identifier occurs twice, and further identifiers behind the input take none from the list. -/
theorem duplicateIds_exact (ids : List Text) :
    (∀ found, ListsIds found (fun id => 2 ≤ ids.count id) ↔ found = duplicateIds ids) ∧
    (∀ others, ids.Perm others → duplicateIds others = duplicateIds ids) ∧
    (duplicateIds ids = [] ↔ ids.Nodup) ∧
    ∀ more, (duplicateIds ids).Sublist (duplicateIds (ids ++ more)) := by
  refine ⟨fun found => ⟨fun lists => lists.unique (listsIds_duplicateIds ids), ?_⟩,
    fun others perm => (duplicateIds_eq_of_perm perm).symm, duplicateIds_eq_nil_iff ids,
    duplicateIds_sublist_append ids⟩
  rintro rfl
  exact listsIds_duplicateIds ids

theorem duplicateIds_exact_swapped :
    ["b".toList, "a".toList, "b".toList, "a".toList].Perm
        ["a".toList, "b".toList, "b".toList, "a".toList] ∧
      duplicateIds ["b", "a", "b", "a"] = ["a".toList, "b".toList] ∧
      duplicateIds ["a", "b", "b", "a"] = ["a".toList, "b".toList] := by
  have swapped : ["b".toList, "a".toList, "b".toList, "a".toList].Perm
      ["a".toList, "b".toList, "b".toList, "a".toList] := .swap _ _ _
  have sorted : duplicateIds ["b", "a", "b", "a"] = ["a".toList, "b".toList] := by decide +kernel
  have same := (duplicateIds_exact _).2.1 _ swapped
  exact ⟨swapped, sorted, same.trans sorted⟩

end Rule

end MdxCheck
