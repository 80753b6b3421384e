import MdxCheck.Decimal.Shortest
import MdxCheck.Text.Digit
import MdxCheck.Text.Quoted

/-!
Numbers from text: integers in some base and floating-point numbers, with a sign perhaps, in the
digits of any script, and with blanks around them.
-/

namespace MdxCheck.Decimal

inductive Fault where
  | integer (base : Nat) (source : Text)
  | float (source : Text)
  | tooLong (digits : Nat)
deriving DecidableEq, Repr

def digitLimit : Nat := 4300

def Fault.message : Fault → Text
  | integer base source =>
    "invalid literal for int() with base " ++ Text.decimal base ++ ": " ++ Text.quoted source
  | float source => "could not convert string to float: " ++ Text.quoted source
  | tooLong digits =>
    "Exceeds the limit (" ++ Text.decimal digitLimit ++
      ") for integer string conversion: value has " ++ Text.decimal digits ++
      " digits; use sys.set_int_max_str_digits() to increase the limit"

def unsigned : Text → Text
  | '+' :: text => text
  | '-' :: text => text
  | text => text

def isRun (accept : Char → Bool) (text : Text) : Bool :=
  !text.isEmpty && text.all accept

/-- A text with the digits of all scripts as ASCII digits and blanks as spaces, without blanks at
its ends. A text in ASCII keeps its separators. -/
def normalized (text : Text) : Text :=
  let isSpace (c : Char) : Bool := c == ' ' || ('\t' ≤ c && c ≤ '\r')
  let text := if text.all (·.toNat < 128) then text
    else text.map fun c =>
      match Text.decimalDigit? c with
      | some digit => Char.ofNat (48 + digit)
      | none => if Text.isBlank c then ' ' else c
  let inside := text.dropWhile isSpace
  (inside.reverse.dropWhile isSpace).reverse

def digitsIn (base : Nat) (text : Text) : Text :=
  match text with
  | '0' :: mark :: rest =>
    let mark := mark.toLower
    if (base = 16 ∧ mark = 'x') ∨ (base = 8 ∧ mark = 'o') ∨ (base = 2 ∧ mark = 'b') then rest
    else text
  | text => text

def readInteger (base : Nat) (source : Text) : Except Fault Int :=
  let text := normalized source
  let digits := digitsIn base (unsigned text)
  if isRun (fun c => (Text.digitValue? base c).isSome) digits then
    if base = 10 ∧ digitLimit < digits.length then .error (.tooLong digits.length)
    else
      let value : Int := Text.toNat base digits
      .ok (if text.head? = some '-' then -value else value)
  else .error (.integer base source)

def floatOf (whole fraction : Text) (exponent : Int) : Float :=
  Decimal.toFloat (Text.toNat 10 (whole ++ fraction)) (exponent - fraction.length)

/-- The number that the text of an exponent stands for; there is none if it is malformed. -/
def exponent? : Text → Option Int
  | [] => some 0
  | e :: rest =>
    let digits := unsigned rest
    if (e = 'e' ∨ e = 'E') ∧ isRun Char.isDigit digits then
      let value : Int := Text.toNat 10 digits
      some (if rest.head? = some '-' then -value else value)
    else none

def positiveFloat? (text : Text) : Option Float :=
  let word := String.ofList (text.map Char.toLower)
  if word = "inf" ∨ word = "infinity" then some (1.0 / 0.0)
  else if word = "nan" then some (0.0 / 0.0)
  else
    let whole := text.takeWhile Char.isDigit
    let rest := text.drop whole.length
    let (fraction, rest) := match rest with
      | '.' :: rest =>
        let fraction := rest.takeWhile Char.isDigit
        (fraction, rest.drop fraction.length)
      | rest => ([], rest)
    if whole.isEmpty ∧ fraction.isEmpty then none
    else (exponent? rest).map (floatOf whole fraction)

def readFloat (source : Text) : Except Fault Float :=
  let text := normalized source
  match positiveFloat? (unsigned text) with
  | some value => .ok (if text.head? = some '-' then -value else value)
  | none => .error (.float source)

end MdxCheck.Decimal
