import MdxCheck.Calendar.Moment
import MdxCheck.Decimal.Shortest

/-!
Values of data files: scalars of several kinds, lists and mappings.

A mapping keeps its entries in the order in which their keys first came.
-/

namespace MdxCheck

/-- A value of a data file. A pair stands in an ordered list of pairs. A collection that contains
itself has an `enclosing` value in its own place. -/
inductive Value where
  | null
  | boolean (value : Bool)
  | integer (value : Int)
  | float (value : Float)
  | text (value : Text)
  | date (value : Calendar.Date)
  | moment (value : Calendar.Moment)
  | bytes (values : List Nat)
  | list (items : List Value)
  | set (items : List Value)
  | map (entries : List (Value × Value))
  | pair (first second : Value)
  | enclosing (isMap : Bool)
deriving Inhabited

namespace Value

def typeName : Value → Text
  | null => "NoneType"
  | boolean _ => "bool"
  | integer _ => "int"
  | float _ => "float"
  | text _ => "str"
  | date _ => "date"
  | moment _ => "datetime"
  | bytes _ => "bytes"
  | list _ => "list"
  | set _ => "set"
  | map _ => "dict"
  | pair _ _ => "tuple"
  | enclosing isMap => if isMap then "dict" else "list"

def wholeOf? (x : Float) : Option Int :=
  let ⟨isNegative, exponent, fraction⟩ := Decimal.Fields.ofFloat x
  let sign : Int := if isNegative then -1 else 1
  if exponent = 2047 then none
  else if exponent = 0 then (if fraction = 0 then some 0 else none)
  else
    let mantissa := fraction + Decimal.fractionCount
    if 1075 ≤ exponent then some (sign * (mantissa * Nat.pow 2 (exponent - 1075) : Nat))
    else
      let unit := Nat.pow 2 (1075 - exponent)
      if mantissa % unit = 0 then some (sign * (mantissa / unit : Nat)) else none

/-- The whole number that a value counts as: a truth value counts as one or zero. -/
def whole? : Value → Option Int
  | boolean value => some (if value then 1 else 0)
  | integer value => some value
  | float value => wholeOf? value
  | _ => none

mutual

/-- Whether two values are equal; numbers are equal whatever their kind. -/
def same : Value → Value → Bool
  | null, null => true
  | text a, text b => a == b
  | date a, date b => a == b
  | moment a, moment b => a.same b
  | bytes a, bytes b => a == b
  | list a, list b => sameItems a b
  | set a, set b => a.length == b.length && sameMembers a b
  | map a, map b => a.length == b.length && sameEntries a b
  | pair a b, pair c d => same a c && same b d
  | float a, float b => a == b || (a.isNaN && b.isNaN)
  | enclosing a, enclosing b => a == b
  | a, b =>
    match a.whole?, b.whole? with
    | some a, some b => a == b
    | _, _ => false

def sameItems : List Value → List Value → Bool
  | [], [] => true
  | a :: as, b :: bs => same a b && sameItems as bs
  | _, _ => false

def sameMembers : List Value → List Value → Bool
  | [], _ => true
  | a :: as, bs => bs.any (same a) && sameMembers as bs

def sameEntries : List (Value × Value) → List (Value × Value) → Bool
  | [], _ => true
  | (key, a) :: as, bs =>
    (match bs.find? fun (other, _) => same key other with
      | some (_, b) => same a b
      | none => false) && sameEntries as bs

end

/-- Puts an entry into a mapping: an equal key keeps its place and gets the new value. -/
def insert (key value : Value) : List (Value × Value) → List (Value × Value)
  | [] => [(key, value)]
  | (other, old) :: entries =>
    if same other key then (other, value) :: entries else (other, old) :: insert key value entries

def lookup (key : Text) (entries : List (Value × Value)) : Option Value :=
  (entries.find? fun (other, _) => same other (text key)).map Prod.snd

end Value

end MdxCheck
