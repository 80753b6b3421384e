import MdxCheck.Data.Value
import Mathlib

/-!
Floating-point numbers that are whole: their order is that of the whole numbers that they are. The fields
of a number are those that its bits are taken apart into when it is compared.
-/

namespace MdxCheck.Decimal.Fields

open Float.Model Float.Model.UnpackedFloat

variable (x : Float)

/-- The sign that a number is compared with. -/
def sign (fields : Fields) : Sign :=
  if fields.isNegative then .negative else .positive

theorem toNat_unpackExponent :
    (@unpackExponent .binary64 x.toBits.toBitVec).toNat = (ofFloat x).exponent := by
  simp only [unpackExponent, BitVec.toNat_cast, BitVec.extractLsb_toNat, ofFloat,
    Nat.shiftRight_eq_div_pow]
  rfl

theorem toNat_unpackMantissa :
    (@unpackMantissa .binary64 x.toBits.toBitVec).toNat = (ofFloat x).fraction := by
  simp only [unpackMantissa, BitVec.toNat_cast, BitVec.extractLsb_toNat, ofFloat,
    Nat.shiftRight_zero]
  rfl

theorem isNegative_iff : (ofFloat x).isNegative = true ↔ x.toBits.toNat / 2 ^ 63 = 1 := by
  change decide (x.toBits.toNat / 2 ^ 52 / 2 ^ 11 = 1) = true ↔ _
  rw [decide_eq_true_eq, Nat.div_div_eq_div_mul, ← Nat.pow_add]

theorem ofBitVec_unpackSign :
    Sign.ofBitVec (@unpackSign .binary64 x.toBits.toBitVec) = (ofFloat x).sign := by
  have bound : x.toBits.toNat < 2 ^ 64 := x.toBits.toBitVec.isLt
  have bit : (@unpackSign .binary64 x.toBits.toBitVec).toNat = x.toBits.toNat / 2 ^ 63 := by
    simp only [unpackSign, BitVec.toNat_cast, BitVec.extractLsb_toNat, Nat.shiftRight_eq_div_pow]
    change x.toBits.toNat / 2 ^ 63 % 2 = _
    omega
  have positive : @unpackSign .binary64 x.toBits.toBitVec = 0#1 ↔
      ¬(ofFloat x).isNegative = true := by
    rw [isNegative_iff, ← BitVec.toNat_inj, bit]
    change x.toBits.toNat / 2 ^ 63 = 0 ↔ _
    omega
  by_cases negative : (ofFloat x).isNegative = true
  · simp [Sign.ofBitVec, sign, positive, negative]
  · simp [Sign.ofBitVec, sign, positive, negative]

theorem unpack_zero (exponent : (ofFloat x).exponent = 0) (fraction : (ofFloat x).fraction = 0) :
    x.toModel.unpack = .zero (ofFloat x).sign := by
  rw [← toNat_unpackExponent] at exponent
  rw [← toNat_unpackMantissa] at fraction
  have noExponent : @unpackExponent .binary64 x.toBits.toBitVec = 0#11 :=
    BitVec.eq_of_toNat_eq exponent
  have noFraction : @unpackMantissa .binary64 x.toBits.toBitVec = 0#52 :=
    BitVec.eq_of_toNat_eq fraction
  rw [← ofBitVec_unpackSign]
  change UnpackedFloat.unpack .binary64 x.toBits.toBitVec = _
  simp [UnpackedFloat.unpack, noExponent, noFraction]

theorem unpack_normal (positive : (ofFloat x).exponent ≠ 0) (finite : (ofFloat x).exponent ≠ 2047) :
    ∃ nonzero, x.toModel.unpack =
      .finite (ofFloat x).sign ((ofFloat x).fraction + fractionCount)
        ((ofFloat x).exponent - 1075) nonzero := by
  refine ⟨by simp [fractionCount], ?_⟩
  have isPositive : @unpackExponent .binary64 x.toBits.toBitVec ≠ 0#11 := by
    intro same
    rw [← toNat_unpackExponent, same] at positive
    exact positive rfl
  have isFinite : @unpackExponent .binary64 x.toBits.toBitVec ≠ -1#11 := by
    intro same
    rw [← toNat_unpackExponent, same] at finite
    exact finite rfl
  have mantissa : (1#1 ++ @unpackMantissa .binary64 x.toBits.toBitVec).toNat =
      (ofFloat x).fraction + fractionCount := by
    rw [← toNat_unpackMantissa]
    change 2 ^ 52 ||| (@unpackMantissa .binary64 x.toBits.toBitVec).toNat = _
    rw [Nat.or_comm, Nat.or_two_pow_eq_add_of_lt (BitVec.isLt _)]
    rfl
  change UnpackedFloat.unpack .binary64 x.toBits.toBitVec = _
  simp only [UnpackedFloat.unpack, isPositive, isFinite, mantissa, ofBitVec_unpackSign,
    toNat_unpackExponent, if_false]
  rfl

end MdxCheck.Decimal.Fields

namespace MdxCheck.Value

open Decimal Decimal.Fields Float.Model.UnpackedFloat

/-- The size of a whole number from the fields of a floating-point number, which is not zero. -/
def IsSize (fields : Fields) (size : Nat) : Prop :=
  if 1075 ≤ fields.exponent then
    size = (fields.fraction + fractionCount) * 2 ^ (fields.exponent - 1075)
  else size * 2 ^ (1075 - fields.exponent) = fields.fraction + fractionCount

theorem fields_of_wholeOf? {x : Float} {n : Int} (whole : wholeOf? x = some n) :
    (Fields.ofFloat x).exponent = 0 ∧ (Fields.ofFloat x).fraction = 0 ∧ n = 0 ∨
      (Fields.ofFloat x).exponent ≠ 0 ∧ (Fields.ofFloat x).exponent ≠ 2047 ∧
        ∃ size, IsSize (Fields.ofFloat x) size ∧
          n = if (Fields.ofFloat x).isNegative then -(size : Int) else size := by
  simp only [wholeOf?] at whole
  generalize Fields.ofFloat x = fields at whole ⊢
  have signed (size : Nat) : (if fields.isNegative = true then (-1 : Int) else 1) * (size : Int) =
      if fields.isNegative = true then -(size : Int) else size := by
    split <;> omega
  by_cases infinite : fields.exponent = 2047
  · simp [infinite] at whole
  · rw [if_neg infinite] at whole
    by_cases zero : fields.exponent = 0
    · rw [if_pos zero] at whole
      split at whole
      · next noFraction => exact .inl ⟨zero, noFraction, (Option.some.inj whole).symm⟩
      · simp at whole
    · refine .inr ⟨zero, infinite, ?_⟩
      rw [if_neg zero] at whole
      by_cases large : 1075 ≤ fields.exponent
      · rw [if_pos large, signed] at whole
        exact ⟨_, by rw [IsSize, if_pos large]; rfl, (Option.some.inj whole).symm⟩
      · rw [if_neg large] at whole
        split at whole
        · next divides =>
            rw [signed] at whole
            refine ⟨_, ?_, (Option.some.inj whole).symm⟩
            rw [IsSize, if_neg large]
            exact Nat.div_mul_cancel (Nat.dvd_of_mod_eq_zero divides)
        · simp at whole

/-- A whole number that is not zero has a size of one or more, and so it has no smaller exponent. -/
theorem IsSize.one_le {fields : Fields} {size : Nat} (isSize : IsSize fields size)
    (bound : fields.fraction < fractionCount) : 1 ≤ size ∧ 1023 ≤ fields.exponent := by
  have mantissa : 0 < fields.fraction + fractionCount := by simp [fractionCount]
  unfold IsSize at isSize
  split at isSize
  · next large =>
      have positive := Nat.mul_pos mantissa (Nat.two_pow_pos (fields.exponent - 1075))
      omega
  · next small =>
      have positive : 0 < size := by
        rcases Nat.eq_zero_or_pos size with rfl | positive
        · omega
        · exact positive
      refine ⟨positive, ?_⟩
      apply Nat.le_of_not_lt
      intro low
      have unit : 2 ^ 53 ≤ 2 ^ (1075 - fields.exponent) := Nat.pow_le_pow_right (by omega) (by omega)
      have least := Nat.le_mul_of_pos_left (2 ^ (1075 - fields.exponent)) positive
      simp only [fractionCount] at bound isSize
      omega

/-- A whole floating-point number is less than one just if the whole number is. -/
theorem lt_one_iff {x : Float} {n : Int} (whole : wholeOf? x = some n) : x < Float.ofInt 1 ↔ n < 1 := by
  have one : (Float.ofInt 1).toModel.unpack = .finite .positive fractionCount (-52) (by decide) := by
    rfl
  have compared : x < Float.ofInt 1 ↔
      x.toModel.unpack.compare (Float.ofInt 1).toModel.unpack = some .lt := by
    change decide (x.toModel.unpack.lt (Float.ofInt 1).toModel.unpack = true) = true ↔ _
    rw [decide_eq_true_eq, Float.Model.UnpackedFloat.lt]
    simp
  rw [compared, one]
  rcases fields_of_wholeOf? whole with ⟨exponent, fraction, rfl⟩ | ⟨positive, finite, size, isSize, rfl⟩
  · rw [unpack_zero x exponent fraction]
    simp [Float.Model.UnpackedFloat.compare]
  · obtain ⟨nonzero, unpacked⟩ := unpack_normal x positive finite
    rw [unpacked, Fields.sign]
    by_cases negative : (Fields.ofFloat x).isNegative = true
    · simp only [negative, if_true, Float.Model.UnpackedFloat.compare]
      simp
      omega
    · obtain ⟨least, exponent⟩ := isSize.one_le (Nat.mod_lt _ (by decide))
      rw [if_neg negative, if_neg negative]
      simp only [Float.Model.UnpackedFloat.compare, Option.some.injEq, Ordering.then_eq_lt,
        Int.compare_eq_lt, Int.compare_eq_eq, Nat.compare_eq_lt]
      omega

end MdxCheck.Value
