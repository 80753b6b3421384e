import MdxCheck.Text.Basic

/-!
Tables over the code points. A set is written as the lengths of its gaps and runs in turn, a map
as runs of code points that move by one distance; both are kept as texts of numbers in base 36.
-/

namespace MdxCheck.Text

/-- Reads numbers in base 36 that stand apart by single blanks; a minus sign may come first. -/
def tableNumbers (table : String) : List Int :=
  (splitOn (· == ' ') table.toList).filterMap fun
    | [] => none
    | '-' :: digits => some (-(toNat 36 digits : Int))
    | digits => some (toNat 36 digits)

/-- Half-open intervals from the lengths of the gaps and runs between them. -/
def intervalsFrom (start : Nat) : List Int → List (Nat × Nat)
  | gap :: run :: rest =>
    let first := start + gap.toNat
    let past := first + run.toNat
    (first, past) :: intervalsFrom past rest
  | _ => []

/-- A set of code points as increasing half-open intervals. -/
structure CharSet where
  intervals : Array (Nat × Nat)

/-- Reads a set from the lengths of its gaps and runs. -/
def CharSet.ofTable (table : String) : CharSet :=
  ⟨(intervalsFrom 0 (tableNumbers table)).toArray⟩

/-- Looks for the interval of `code` among those from `low` to below `high`. -/
def CharSet.search (set : CharSet) (code : Nat) : Nat → Nat → Nat → Bool
  | 0, _, _ => false
  | fuel + 1, low, high =>
    if low < high then
      let middle := (low + high) / 2
      match set.intervals[middle]? with
      | none => false
      | some (first, past) =>
        if code < first then set.search code fuel low middle
        else if code < past then true
        else set.search code fuel (middle + 1) high
    else false

def CharSet.contains (set : CharSet) (c : Char) : Bool :=
  set.search c.toNat set.intervals.size 0 set.intervals.size

/-- A run of code points `first`, `first + step`, … up to `last`, each moved by `distance`. -/
structure Shift where
  first : Nat
  last : Nat
  step : Nat
  distance : Int

/-- Reads runs of shifted code points, each written as the gap since the end of the run before,
its count less one, its step and its distance. -/
def shiftsFrom (start : Int) : List Int → List Shift
  | gap :: count :: step :: distance :: rest =>
    let first := start + gap
    let last := first + count * step
    ⟨first.toNat, last.toNat, step.toNat, distance⟩ :: shiftsFrom last rest
  | _ => []

def shiftIn (code : Nat) (shifts : List Shift) : Option Nat :=
  (shifts.find? fun shift =>
    shift.first ≤ code && code ≤ shift.last && (code - shift.first) % shift.step == 0).map
    fun shift => ((code : Int) + shift.distance).toNat

end MdxCheck.Text
