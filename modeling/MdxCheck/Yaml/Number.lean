import MdxCheck.Decimal.Read

/-!
Numbers in YAML: which plain scalars are numbers, and the values of scalars that are read as such.
Underscores between digits do not count, and parts with colons are places in base sixty.
-/

namespace MdxCheck.Yaml

open Decimal (unsigned isRun readInteger readFloat)

def isDigitOrLine (c : Char) : Bool :=
  c.isDigit || c == '_'

/-- Whether the text starts with a digit and goes on with digits and underscores. -/
def isDigits : Text → Bool
  | [] => false
  | c :: rest => c.isDigit && rest.all isDigitOrLine

/-- Whether the text is a place in base sixty: one digit, or two of which the first is below six. -/
def isSixtieth : Text → Bool
  | [c] => c.isDigit
  | [c, d] => '0' ≤ c && c ≤ '5' && d.isDigit
  | _ => false

def isInteger (text : Text) : Bool :=
  match unsigned text with
  | '0' :: 'b' :: rest => isRun (fun c => c == '0' || c == '1' || c == '_') rest
  | '0' :: 'x' :: rest => isRun (fun c => (Text.digitValue? 16 c).isSome || c == '_') rest
  | '0' :: rest => rest.all fun c => ('0' ≤ c && c ≤ '7') || c == '_'
  | rest =>
    match Text.splitOn (· == ':') rest with
    | first :: places => isDigits first && places.all isSixtieth
    | [] => false

def isExponent : Text → Bool
  | [] => true
  | e :: sign :: digits =>
    (e == 'e' || e == 'E') && (sign == '+' || sign == '-') && isRun Char.isDigit digits
  | _ => false

def isFraction (text : Text) : Bool :=
  isExponent (text.dropWhile isDigitOrLine)

def isFloat (text : Text) : Bool :=
  let words (words : List String) (rest : Text) : Bool := words.any fun word => word.toList == rest
  match text with
  | '.' :: rest =>
    (((rest.head?.map Char.isDigit).getD false) && isFraction rest) ||
      words ["inf", "Inf", "INF", "nan", "NaN", "NAN"] rest
  | _ =>
    match unsigned text with
    | '.' :: rest => words ["inf", "Inf", "INF"] rest
    | rest =>
      match Text.cut? '.' rest with
      | none => false
      | some (whole, fraction) =>
        match Text.splitOn (· == ':') whole with
        | [] => false
        | [digits] => isDigits digits && isFraction fraction
        | digits :: places => isDigits digits && places.all isSixtieth && fraction.all isDigitOrLine

/-- An integer from its places in base sixty, the last one first. -/
def sixtieths (weight : Int) : List Int → Int
  | [] => 0
  | place :: places => place * weight + sixtieths (weight * 60) places

def floatSixtieths (weight : Nat) (sum : Float) : List Float → Float
  | [] => sum
  | place :: places =>
    floatSixtieths (weight * 60) (sum + place * Decimal.toFloat weight 0) places

/-- The most places in base sixty of a floating-point number: the weight of a further one, the power
of sixty with this exponent, is beyond the greatest of these numbers. -/
def placeLimit : Nat := 174

/-- Why a scalar is read as no number: it has no characters, they are no number, or the weight of its
first place is none. -/
inductive NumberFault where
  | noCharacters
  | digits (fault : Decimal.Fault)
  | hugeWeight
deriving DecidableEq, Repr

def integerValue (source : Text) : Except NumberFault Int :=
  let text := source.filter (· ≠ '_')
  if text.isEmpty then .error .noCharacters
  else
    let sign : Int := if text.head? = some '-' then -1 else 1
    let digits := unsigned text
    let value : Except Decimal.Fault Int :=
      match digits with
      | ['0'] => .ok 0
      | '0' :: 'b' :: rest => readInteger 2 rest
      | '0' :: 'x' :: rest => readInteger 16 rest
      | '0' :: _ => readInteger 8 digits
      | digits =>
        if digits.any (· == ':') then
          ((Text.splitOn (· == ':') digits).mapM (readInteger 10)).map fun places =>
            sixtieths 1 places.reverse
        else readInteger 10 digits
    if digits.isEmpty then .error .noCharacters
    else (value.map (sign * ·)).mapError .digits

def floatValue (source : Text) : Except NumberFault Float :=
  let text := (source.filter (· ≠ '_')).map Char.toLower
  if text.isEmpty then .error .noCharacters
  else
    let isNegative := text.head? == some '-'
    let digits := unsigned text
    let value : Except NumberFault Float :=
      if digits = ".inf".toList then .ok (1.0 / 0.0)
      else if digits = ".nan".toList then .ok (0.0 / 0.0)
      else if digits.any (· == ':') then do
        let places ← ((Text.splitOn (· == ':') digits).mapM readFloat).mapError .digits
        if placeLimit < places.length then .error .hugeWeight
        else return floatSixtieths 1 0.0 places.reverse
      else (readFloat digits).mapError .digits
    value.map fun value => if isNegative then -value else value

end MdxCheck.Yaml
