import Mathlib.Algebra.GroupWithZero.Nat
import Mathlib.Data.List.Induction
import MdxCheck.Text.Basic

/-!
Numbers written in digits: different numbers are written differently, and with zeros in front every
text of digits is the way to write its own number.
-/

namespace MdxCheck.Text

theorem digitChar_injective :
    ∀ digit < 10, ∀ other < 10, digitChar digit = digitChar other → digit = other := by
  decide

theorem digitsBelow_injective {fuel otherFuel n m : Nat} (below : n < fuel) (otherBelow : m < otherFuel)
    (same : digitsBelow 10 fuel n = digitsBelow 10 otherFuel m) : n = m := by
  induction fuel generalizing otherFuel n m with
  | zero => omega
  | succ fuel ih =>
      obtain ⟨otherFuel, rfl⟩ : ∃ before, otherFuel = before + 1 := ⟨otherFuel - 1, by omega⟩
      rw [digitsBelow, digitsBelow, List.cons.injEq] at same
      obtain ⟨last, others⟩ := same
      have last := digitChar_injective _ (Nat.mod_lt _ (by decide)) _ (Nat.mod_lt _ (by decide)) last
      split at others
      · next small =>
          split at others
          · omega
          · obtain ⟨more, rfl⟩ : ∃ more, otherFuel = more + 1 := ⟨otherFuel - 1, by omega⟩
            simp [digitsBelow] at others
      · next large =>
          split at others
          · obtain ⟨more, rfl⟩ : ∃ more, fuel = more + 1 := ⟨fuel - 1, by omega⟩
            simp [digitsBelow] at others
          · have front := ih (by omega) (by omega) others
            omega

theorem decimal_injective {n m : Nat} (same : decimal n = decimal m) : n = m :=
  digitsBelow_injective (Nat.lt_succ_self n) (Nat.lt_succ_self m) (List.reverse_inj.mp same)

theorem isDigit_of_mem_digitsBelow {fuel n : Nat} :
    ∀ c ∈ digitsBelow 10 fuel n, c.isDigit = true := by
  have written : ∀ digit < 10, (digitChar digit).isDigit = true := by decide
  induction fuel generalizing n with
  | zero => simp [digitsBelow]
  | succ fuel ih =>
      intro c member
      rw [digitsBelow, List.mem_cons] at member
      rcases member with rfl | member
      · exact written _ (Nat.mod_lt _ (by decide))
      · split at member
        · simp at member
        · exact ih c member

theorem isDigit_of_mem_decimal {n : Nat} {c : Char} (member : c ∈ decimal n) : c.isDigit = true :=
  isDigit_of_mem_digitsBelow c (List.mem_reverse.mp member)

theorem digitsBelow_eq_of_lt {fuel otherFuel n : Nat} (below : n < fuel) (otherBelow : n < otherFuel) :
    digitsBelow 10 fuel n = digitsBelow 10 otherFuel n := by
  induction fuel generalizing otherFuel n with
  | zero => omega
  | succ fuel ih =>
      obtain ⟨otherFuel, rfl⟩ : ∃ before, otherFuel = before + 1 := ⟨otherFuel - 1, by omega⟩
      rw [digitsBelow, digitsBelow]
      split
      · rfl
      · next large =>
          have front : digitsBelow 10 fuel (n / 10) = digitsBelow 10 otherFuel (n / 10) :=
            ih (by omega) (by omega)
          rw [front]

theorem ofNat_of_lt {n : Nat} (small : n < 10) : ofNat 10 n = [digitChar n] := by
  rw [ofNat, digitsBelow, if_pos small, Nat.mod_eq_of_lt small]
  rfl

theorem ofNat_of_le {n : Nat} (large : 10 ≤ n) :
    ofNat 10 n = ofNat 10 (n / 10) ++ [digitChar (n % 10)] := by
  have front : digitsBelow 10 n (n / 10) = digitsBelow 10 (n / 10 + 1) (n / 10) :=
    digitsBelow_eq_of_lt (by omega) (by omega)
  rw [ofNat, digitsBelow, if_neg (by omega), List.reverse_cons, front, ofNat]

theorem padded_one {n : Nat} (small : n < 10) : padded 10 1 n = [digitChar n] := by
  simp [padded, ofNat_of_lt small]

theorem padded_succ (width n : Nat) :
    padded 10 (width + 2) n = padded 10 (width + 1) (n / 10) ++ [digitChar (n % 10)] := by
  by_cases small : n < 10
  · have none : n / 10 = 0 := Nat.div_eq_of_lt small
    have zeros : List.replicate (width + 1) '0' = List.replicate width '0' ++ ['0'] :=
      List.replicate_succ'
    simp [padded, ofNat_of_lt small, none, ofNat_of_lt (n := 0), Nat.mod_eq_of_lt small, zeros,
      digitChar]
  · simp [padded, ofNat_of_le (Nat.le_of_not_lt small)]

theorem toNat_concat (digits : Text) (digit : Char) :
    toNat 10 (digits ++ [digit]) = toNat 10 digits * 10 + (digitValue? 10 digit).getD 0 := by
  simp [toNat]

theorem digitChar_digitValue {c : Char} (digit : c.isDigit = true) :
    (digitValue? 10 c).getD 0 < 10 ∧ digitChar ((digitValue? 10 c).getD 0) = c := by
  obtain ⟨low, high⟩ : 48 ≤ c.toNat ∧ c.toNat ≤ 57 := by
    simpa [Char.isDigit, UInt32.le_iff_toNat_le] using digit
  have small : c.toNat - 48 < 10 := by omega
  have value : (digitValue? 10 c).getD 0 = c.toNat - 48 := by
    simp [digitValue?, low, high, small]
  rw [value]
  refine ⟨small, ?_⟩
  rw [digitChar, if_pos small, Nat.add_sub_cancel' low]
  exact Char.ofNat_toNat c

theorem digitValue_digitChar : ∀ digit < 10, (digitValue? 10 (digitChar digit)).getD 0 = digit := by
  decide

theorem length_padded {width n : Nat} (fits : n < 10 ^ (width + 1)) :
    (padded 10 (width + 1) n).length = width + 1 := by
  induction width generalizing n with
  | zero => rw [padded_one (by omega), List.length_singleton]
  | succ width ih =>
      rw [padded_succ, List.length_append, ih (by omega), List.length_singleton]

theorem isDigit_of_mem_padded {width n : Nat} {c : Char} (member : c ∈ padded 10 width n) :
    c.isDigit = true := by
  rcases List.mem_append.mp member with padding | digit
  · rw [List.eq_of_mem_replicate padding]
    decide
  · exact isDigit_of_mem_decimal digit

theorem toNat_padded {width n : Nat} (fits : n < 10 ^ (width + 1)) :
    toNat 10 (padded 10 (width + 1) n) = n := by
  induction width generalizing n with
  | zero =>
      rw [padded_one (by omega)]
      simpa [toNat] using digitValue_digitChar n (by omega)
  | succ width ih =>
      rw [padded_succ, toNat_concat, ih (by omega), digitValue_digitChar _ (Nat.mod_lt _ (by decide))]
      omega

theorem padded_toNat {digits : Text} (shown : digits ≠ []) (all : ∀ c ∈ digits, c.isDigit = true) :
    toNat 10 digits < 10 ^ digits.length ∧ padded 10 digits.length (toNat 10 digits) = digits := by
  induction digits using List.reverseRecOn with
  | nil => contradiction
  | append_singleton front last ih =>
      obtain ⟨small, back⟩ := digitChar_digitValue (all last (by simp))
      by_cases alone : front = []
      · subst alone
        constructor
        · simpa [toNat] using small
        · simpa [toNat, padded_one small] using back
      · obtain ⟨below, same⟩ := ih alone fun c member => all c (by simp [member])
        obtain ⟨before, long⟩ : ∃ before, front.length = before + 1 :=
          ⟨front.length - 1, by have := List.length_pos_iff.mpr alone; omega⟩
        rw [toNat_concat, List.length_append, List.length_singleton]
        constructor
        · rw [Nat.pow_succ]
          omega
        · rw [long] at same ⊢
          rw [padded_succ]
          have whole : (toNat 10 front * 10 + (digitValue? 10 last).getD 0) / 10 = toNat 10 front := by
            omega
          have unit : (toNat 10 front * 10 + (digitValue? 10 last).getD 0) % 10 =
              (digitValue? 10 last).getD 0 := by
            omega
          rw [whole, unit, same, back]

end MdxCheck.Text
