import MdxCheck.Data.Value
import MdxCheck.Decimal.Read

/-!
Values as text: a text by itself is shown as it is, inside of a collection in quotes. An integer with
too many digits is not written out.
-/

namespace MdxCheck.Value

def quotedByte (quote : Char) (byte : Nat) : Text :=
  let c := Char.ofNat byte
  if c = quote ∨ c = '\\' then ['\\', c]
  else if c = '\t' then ['\\', 't']
  else if c = '\n' then ['\\', 'n']
  else if c = '\r' then ['\\', 'r']
  else if 32 ≤ byte ∧ byte < 127 then [c]
  else '\\' :: 'x' :: Text.padded 16 2 byte

def quotedBytes (bytes : List Nat) : Text :=
  let quote := Text.quoteOf (bytes.map Char.ofNat)
  'b' :: quote :: (bytes.flatMap (quotedByte quote) ++ [quote])

mutual

def describe : Value → Text
  | null => "None"
  | boolean value => if value then "True" else "False"
  | integer value => Text.decimalInt value
  | float value => Decimal.ofFloat value
  | text value => Text.quoted value
  | date value => value.describe
  | moment value => value.describe
  | bytes values => quotedBytes values
  | list items => "[" ++ Text.join ", " (describeAll items) ++ "]"
  | set [] => "set()"
  | set items => "\x7b" ++ Text.join ", " (describeAll items) ++ "\x7d"
  | map entries => "\x7b" ++ Text.join ", " (describeEntries entries) ++ "\x7d"
  | pair first second => "(" ++ describe first ++ ", " ++ describe second ++ ")"
  | enclosing isMap => if isMap then "\x7b...\x7d" else "[...]"

def describeAll : List Value → List Text
  | [] => []
  | value :: values => describe value :: describeAll values

def describeEntries : List (Value × Value) → List Text
  | [] => []
  | (key, value) :: entries => (describe key ++ ": " ++ describe value) :: describeEntries entries

end

def shown : Value → Text
  | text value => value
  | date value => value.iso
  | moment value => value.iso ' '
  | value => value.describe

mutual

/-- Whether no integer in a value has more digits than are written out. -/
def isWritable : Value → Bool
  | integer value => value.natAbs < Nat.pow 10 Decimal.digitLimit
  | list items => areWritable items
  | set items => areWritable items
  | map entries => areEntriesWritable entries
  | pair first second => isWritable first && isWritable second
  | _ => true

def areWritable : List Value → Bool
  | [] => true
  | value :: values => isWritable value && areWritable values

def areEntriesWritable : List (Value × Value) → Bool
  | [] => true
  | (key, value) :: entries => isWritable key && isWritable value && areEntriesWritable entries

end

/-- A value that is not written out, since an integer in it has too many digits. -/
structure TooLong where
deriving DecidableEq, Repr

def TooLong.message (_ : TooLong) : Text :=
  "Exceeds the limit (" ++ Text.decimal Decimal.digitLimit ++
    ") for integer string conversion; use sys.set_int_max_str_digits() to increase the limit"

def written (value : Value) : Except TooLong Text :=
  if value.isWritable then .ok value.shown else .error ⟨⟩

end MdxCheck.Value
