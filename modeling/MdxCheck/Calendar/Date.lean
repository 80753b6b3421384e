import MdxCheck.Text.Basic

/-!
Dates of the Gregorian calendar from year 1 to year 9999, as days and as text.
-/

namespace MdxCheck.Calendar

structure Date where
  year : Nat
  month : Nat
  day : Nat
deriving DecidableEq, Repr, Inhabited

inductive Fault where
  | year (given : Nat)
  | month
  | day
  | hour
  | minute
  | second
  | offset (days : Int) (seconds : Nat)
deriving DecidableEq, Repr

def Fault.message : Fault → Text
  | year given => "year " ++ Text.decimal given ++ " is out of range"
  | month => "month must be in 1..12"
  | day => "day is out of range for month"
  | hour => "hour must be in 0..23"
  | minute => "minute must be in 0..59"
  | second => "second must be in 0..59"
  | offset days seconds =>
    let rest : Text := if seconds = 0 then [] else ", seconds=" ++ Text.decimal seconds
    "offset must be a timedelta strictly between -timedelta(hours=24) and " ++
      ("timedelta(hours=24), not datetime.timedelta(days=" ++ Text.decimalInt days ++ rest ++ ").")

def isLeap (year : Nat) : Bool :=
  year % 4 == 0 && (year % 100 != 0 || year % 400 == 0)

def daysInMonth (year month : Nat) : Nat :=
  if month = 2 then (if isLeap year then 29 else 28)
  else if month = 4 ∨ month = 6 ∨ month = 9 ∨ month = 11 then 30
  else 31

namespace Date

def check (year month day : Nat) : Except Fault Date :=
  if year < 1 ∨ 9999 < year then .error (.year year)
  else if month < 1 ∨ 12 < month then .error .month
  else if day < 1 ∨ daysInMonth year month < day then .error .day
  else .ok ⟨year, month, day⟩

def daysBeforeYear (year : Nat) : Nat :=
  let past := year - 1
  past * 365 + past / 4 - past / 100 + past / 400

def daysInMonths (year : Nat) : Nat → Nat
  | 0 => 0
  | month + 1 => daysInMonths year month + daysInMonth year (month + 1)

/-- The number of a day, the first of January of year 1 being the first. -/
def dayNumber (date : Date) : Nat :=
  daysBeforeYear date.year + daysInMonths date.year (date.month - 1) + date.day

def daysUntil (first last : Date) : Int :=
  (last.dayNumber : Int) - first.dayNumber

def isAfter (date other : Date) : Bool :=
  other.dayNumber < date.dayNumber

def iso (date : Date) : Text :=
  Text.padded 10 4 date.year ++ "-" ++ Text.padded 10 2 date.month ++ "-" ++
    Text.padded 10 2 date.day

def digits? (text : Text) : Option Nat :=
  if text.all Char.isDigit then some (Text.toNat 10 text) else none

def ofIso? (text : Text) : Option Date :=
  match text with
  | [a, b, c, d, '-', e, f, '-', g, h] => do
    let year ← digits? [a, b, c, d]
    let month ← digits? [e, f]
    let day ← digits? [g, h]
    (check year month day).toOption
  | _ => none

def describe (date : Date) : Text :=
  "datetime.date(" ++ Text.decimal date.year ++ ", " ++ Text.decimal date.month ++ ", " ++
    Text.decimal date.day ++ ")"

end Date

end MdxCheck.Calendar
