import MdxCheck.Text.Basic

/-!
Binary floating-point numbers as decimal text, with the fewest digits that read back as the same
number; of two such decimals the nearer is taken.

A number is m · 2^q. All numbers of the interval around it round to it, and its ends do so if m is
even. On the grid of decimals with a given number of digits only the two neighbours of the number
need to be tested.
-/

namespace MdxCheck.Decimal

/-- A positive number m · 2^q; below it the next number is only half as far if `isEdge`. -/
structure Binary where
  mantissa : Nat
  exponent : Int
  isEdge : Bool
deriving Repr

/-- A decimal: digits · 10^exponent. -/
structure Digits where
  digits : Nat
  exponent : Int
deriving DecidableEq, Repr

/-- A number as a fraction of natural numbers, with the denominator 2^a · 10^b. -/
structure Ratio where
  numerator : Nat
  denominator : Nat

def Ratio.scale (ratio : Ratio) (base : Nat) (power : Int) : Ratio :=
  if 0 ≤ power then { ratio with numerator := ratio.numerator * Nat.pow base power.toNat }
  else { ratio with denominator := ratio.denominator * Nat.pow base (-power).toNat }

namespace Binary

/-- Four times the number on a decimal grid, with the ends of its interval: a quarter or a half of
a unit below, and half a unit above. -/
def onGrid (binary : Binary) (grid : Int) : Ratio × Ratio × Ratio :=
  let at4 (numerator : Nat) : Ratio :=
    ((⟨numerator, 4⟩ : Ratio).scale 2 binary.exponent).scale 10 (-grid)
  (at4 (4 * binary.mantissa - if binary.isEdge then 1 else 2), at4 (4 * binary.mantissa),
    at4 (4 * binary.mantissa + 2))

def holds (binary : Binary) (low high : Ratio) (digits : Nat) : Bool :=
  let above := digits * low.denominator
  let below := digits * high.denominator
  if binary.mantissa % 2 = 0 then low.numerator ≤ above && below ≤ high.numerator
  else low.numerator < above && below < high.numerator

def onGrid? (binary : Binary) (grid : Int) : Option Nat :=
  let (low, value, high) := binary.onGrid grid
  let lower := value.numerator / value.denominator
  let left := value.numerator % value.denominator
  let nearer := if 2 * left < value.denominator ∨ (2 * left = value.denominator ∧ lower % 2 = 0)
    then lower else lower + 1
  let farther := if nearer = lower then lower + 1 else lower
  if binary.holds low high nearer then some nearer
  else if binary.holds low high farther then some farther
  else none

/-- The first grid from `grid` down to finer ones with a decimal for the number. -/
def search (binary : Binary) : Nat → Int → Digits
  | 0, grid => ⟨(binary.onGrid? grid).getD 0, grid⟩
  | fuel + 1, grid =>
    match binary.onGrid? grid with
    | some (digits + 1) => ⟨digits + 1, grid⟩
    | _ => search binary fuel (grid - 1)

end Binary

def digitCount (n : Nat) : Nat := (Text.decimal n).length

def firstGrid (binary : Binary) : Int :=
  if 0 ≤ binary.exponent then
    (digitCount (binary.mantissa * Nat.pow 2 binary.exponent.toNat) : Int)
  else
    let below := (-binary.exponent).toNat
    (digitCount (binary.mantissa * Nat.pow 10 400 / Nat.pow 2 below) : Int) - 400

/-- The decimal with the fewest digits that stands for a number, without zeros at its end. -/
def shortest (binary : Binary) : Digits :=
  binary.search 400 (firstGrid binary)

def fractionCount : Nat := 0x10000000000000

structure Fields where
  isNegative : Bool
  exponent : Nat
  fraction : Nat
deriving DecidableEq, Repr

def Fields.ofFloat (x : Float) : Fields :=
  let high := x.toBits.toNat / fractionCount
  ⟨high / 0x800 = 1, high % 0x800, x.toBits.toNat % fractionCount⟩

def binaryOf (exponent fraction : Nat) : Binary :=
  if exponent = 0 then ⟨fraction, -1074, false⟩
  else ⟨fraction + fractionCount, (exponent : Int) - 1075, fraction = 0 && 1 < exponent⟩

structure Notation where
  least : Int
  greatest : Int

/-- Decimals from 0.0001 to below 10^16 are written without an exponent. -/
def plainNotation : Notation := ⟨-4, 16⟩

/-- Digits with the decimal point after `point` of them, at least one digit on either side. -/
def positional (digits : Text) (point : Int) : Text :=
  if point ≤ 0 then "0." ++ List.replicate (-point).toNat '0' ++ digits
  else if point.toNat < digits.length then
    digits.take point.toNat ++ "." ++ digits.drop point.toNat
  else digits ++ List.replicate (point.toNat - digits.length) '0' ++ ".0"

/-- Digits with the point after the first, and the exponent in two digits or more. -/
def scientific (digits : Text) (point : Int) : Text :=
  let power := point - 1
  let places : Text := if 1 < digits.length then "." ++ digits.drop 1 else []
  let sign : Text := if power < 0 then "e-" else "e+"
  digits.take 1 ++ places ++ sign ++ Text.padded 10 2 power.natAbs

def Digits.render (style : Notation) (decimal : Digits) : Text :=
  let digits := Text.decimal decimal.digits
  let point := decimal.exponent + digits.length
  if style.least < point ∧ point ≤ style.greatest then positional digits point
  else scientific digits point

def ofFloat (x : Float) : Text :=
  let ⟨isNegative, exponent, fraction⟩ := Fields.ofFloat x
  let sign : Text := if isNegative then ['-'] else []
  if exponent = 2047 then (if fraction = 0 then sign ++ "inf" else "nan")
  else if exponent = 0 ∧ fraction = 0 then sign ++ "0.0"
  else sign ++ (shortest (binaryOf exponent fraction)).render plainNotation

def toFloat (digits : Nat) (exponent : Int) : Float :=
  let size := exponent + digitCount digits
  if digits = 0 ∨ size < -400 then 0.0
  else if 400 < size then Float.ofScientific 1 false 400
  else if 0 ≤ exponent then Float.ofScientific digits false exponent.toNat
  else Float.ofScientific digits true (-exponent).toNat

end MdxCheck.Decimal
