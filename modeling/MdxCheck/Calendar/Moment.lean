import MdxCheck.Calendar.Date

/-!
A date with a time of day and perhaps its offset from universal time.
-/

namespace MdxCheck.Calendar

/-- A date and a time. The offset from universal time is in minutes. -/
structure Moment where
  date : Date
  hour : Nat
  minute : Nat
  second : Nat
  microsecond : Nat
  offset : Option Int
deriving DecidableEq, Repr, Inhabited

namespace Moment

def splitMinutes (minutes : Int) : Int × Nat :=
  (minutes.fdiv 1440, ((minutes.fmod 1440).toNat) * 60)

def checkOffset (minutes : Int) : Except Fault Int :=
  if minutes.natAbs < 1440 then .ok minutes
  else
    let (days, seconds) := splitMinutes minutes
    .error (.offset days seconds)

def check (year month day hour minute second microsecond : Nat) (offset : Option Int) :
    Except Fault Moment := do
  let date ← Date.check year month day
  if 23 < hour then .error .hour
  else if 59 < minute then .error .minute
  else if 59 < second then .error .second
  else .ok ⟨date, hour, minute, second, microsecond, offset⟩

def isoOffset (minutes : Int) : Text :=
  (if minutes < 0 then '-' else '+') :: (Text.padded 10 2 (minutes.natAbs / 60) ++ ":" ++
    Text.padded 10 2 (minutes.natAbs % 60))

/-- A moment as text, with `separator` between date and time. -/
def iso (separator : Char) (moment : Moment) : Text :=
  moment.date.iso ++ [separator] ++ Text.padded 10 2 moment.hour ++ ":" ++
    Text.padded 10 2 moment.minute ++ ":" ++ Text.padded 10 2 moment.second ++
    (if moment.microsecond = 0 then [] else '.' :: Text.padded 10 6 moment.microsecond) ++
    ((moment.offset.map isoOffset).getD [])

/-- The microseconds from the start of the calendar to a moment in universal time. -/
def instant (moment : Moment) : Int :=
  (((moment.date.dayNumber * 1440 + moment.hour * 60 + moment.minute : Nat) : Int) -
    moment.offset.getD 0) * 60000000 +
    ((moment.second * 1000000 + moment.microsecond : Nat) : Int)

/-- Whether two moments are the same: both have an offset or neither has one, and they agree in
universal time. -/
def same (moment other : Moment) : Bool :=
  moment.offset.isSome == other.offset.isSome && moment.instant == other.instant

def describeOffset (minutes : Int) : Text :=
  if minutes = 0 then "datetime.timezone.utc"
  else
    let (days, seconds) := splitMinutes minutes
    let seconds : Text := "seconds=" ++ Text.decimal seconds
    "datetime.timezone(datetime.timedelta(" ++
      (if days = 0 then seconds else "days=" ++ Text.decimalInt days ++ ", " ++ seconds) ++ "))"

/-- A moment as the call that makes it; seconds and smaller parts are left out if they are zero at
the end. -/
def describe (moment : Moment) : Text :=
  let parts := [moment.date.year, moment.date.month, moment.date.day, moment.hour, moment.minute] ++
    (if moment.microsecond = 0 then (if moment.second = 0 then [] else [moment.second])
      else [moment.second, moment.microsecond])
  "datetime.datetime(" ++ Text.join ", " (parts.map Text.decimal) ++
    ((moment.offset.map fun minutes => ", tzinfo=" ++ describeOffset minutes).getD []) ++ ")"

end Moment

end MdxCheck.Calendar
