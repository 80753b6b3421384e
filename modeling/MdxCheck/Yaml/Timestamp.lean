import MdxCheck.Calendar.Moment
import MdxCheck.Yaml.Number

/-!
Timestamps in YAML: a date by itself, or with a time and perhaps an offset from universal time.
-/

namespace MdxCheck.Yaml

/-- The time of a timestamp; the offset is in minutes. -/
structure TimeParts where
  hour : Nat
  minute : Nat
  second : Nat
  fraction : Text
  offset : Option Int
deriving DecidableEq, Repr

/-- A timestamp as it is written; `isPadded` says that month and day have two digits. -/
structure Timestamp where
  year : Nat
  month : Nat
  day : Nat
  isPadded : Bool
  time : Option TimeParts
deriving DecidableEq, Repr

namespace Timestamp

/-- The number of the first `least` to `most` digits, how many there are, and what follows. -/
def digits? (least most : Nat) (text : Text) : Option (Nat × Nat × Text) :=
  let digits := (text.take most).takeWhile Char.isDigit
  if least ≤ digits.length then
    some (Text.toNat 10 digits, digits.length, text.drop digits.length)
  else none

def after? (c : Char) : Text → Option Text
  | d :: rest => if d = c then some rest else none
  | [] => none

def isGap (c : Char) : Bool :=
  c == ' ' || c == '\t'

def offset? (text : Text) : Option Int :=
  match text with
  | ['Z'] => some 0
  | sign :: rest =>
    if sign = '+' ∨ sign = '-' then do
      let (hours, _, rest) ← digits? 1 2 rest
      let minutes ← match rest with
        | [] => some 0
        | ':' :: rest => do
          let (minutes, _, rest) ← digits? 2 2 rest
          if rest.isEmpty then some minutes else none
        | _ => none
      let total : Int := hours * 60 + minutes
      return if sign = '-' then -total else total
    else none
  | [] => none

def time? (text : Text) : Option TimeParts := do
  let (hour, _, rest) ← digits? 1 2 text
  let (minute, _, rest) ← (after? ':' rest).bind (digits? 2 2)
  let (second, _, rest) ← (after? ':' rest).bind (digits? 2 2)
  let (fraction, rest) := match rest with
    | '.' :: rest =>
      let fraction := rest.takeWhile Char.isDigit
      (fraction, rest.drop fraction.length)
    | rest => ([], rest)
  if rest.isEmpty then return ⟨hour, minute, second, fraction, none⟩
  else
    let offset ← offset? (rest.dropWhile isGap)
    return ⟨hour, minute, second, fraction, some offset⟩

def ofText? (text : Text) : Option Timestamp := do
  let (year, _, rest) ← digits? 4 4 text
  let (month, monthDigits, rest) ← (after? '-' rest).bind (digits? 1 2)
  let (day, dayDigits, rest) ← (after? '-' rest).bind (digits? 1 2)
  let isPadded := monthDigits == 2 && dayDigits == 2
  match rest with
  | [] => return ⟨year, month, day, isPadded, none⟩
  | c :: rest =>
    let time ←
      if c = 'T' ∨ c = 't' then time? rest
      else if isGap c then time? (rest.dropWhile isGap)
      else none
    return ⟨year, month, day, isPadded, some time⟩

/-- The first six digits of a fraction as microseconds. -/
def microseconds (fraction : Text) : Nat :=
  let digits := fraction.take 6
  Text.toNat 10 (digits ++ List.replicate (6 - digits.length) '0')

def resolve (timestamp : Timestamp) :
    Except Calendar.Fault (Calendar.Date ⊕ Calendar.Moment) :=
  match timestamp.time with
  | none => (Calendar.Date.check timestamp.year timestamp.month timestamp.day).map .inl
  | some time => do
    let offset ← time.offset.mapM Calendar.Moment.checkOffset
    let moment ← Calendar.Moment.check timestamp.year timestamp.month timestamp.day time.hour
      time.minute time.second (microseconds time.fraction) offset
    return .inr moment

end Timestamp

end MdxCheck.Yaml
