import MdxCheck.Text.Basic

/-!
Punycode: the labels of a host name that stand for text beyond ASCII.
-/

namespace MdxCheck.Url

/-- The value of a digit in Punycode: letters first, then the decimal digits. -/
def punyDigit? (c : Char) : Option Nat :=
  let n := c.toNat
  if 97 ≤ n && n ≤ 122 then some (n - 97)
  else if 65 ≤ n && n ≤ 90 then some (n - 65)
  else if 48 ≤ n && n ≤ 57 then some (n - 22)
  else none

/-- The threshold below which the digit at a place ends its number. -/
def punyThreshold (place bias : Nat) : Nat :=
  let level := 36 * (place + 1) - bias
  if level < 1 then 1 else if 26 < level then 26 else level

/-- The number that some digits open with and what follows it; every digit weighs `weight` more
than the one before. -/
def punyNumber? (bias place weight value : Nat) : Text → Option (Nat × Text)
  | [] => none
  | c :: rest =>
    match punyDigit? c with
    | none => none
    | some digit =>
      let threshold := punyThreshold place bias
      let value := value + digit * weight
      if digit < threshold then some (value, rest)
      else punyNumber? bias (place + 1) (weight * (36 - threshold)) value rest

def punyScale : Nat → Nat → Nat → Nat
  | 0, scale, _ => scale
  | fuel + 1, scale, step =>
    if 455 < step then punyScale fuel (scale + 36) (step / 35)
    else scale + 36 * step / (step + 38)

/-- The bias after a step of the given size that made the text `length` characters long. -/
def punyBias (step length : Nat) (first : Bool) : Nat :=
  let halved := if first then step / 700 else step / 2
  let step := halved + halved / length
  punyScale (step + 1) 0 step

/-- Puts the characters into the text that the numbers place there; `next` is the smallest code
point and place that can come next. -/
def punyInsert (bias code next : Nat) (first : Bool) (text : Text) :
    Nat → Text → Option Text
  | 0, _ => none
  | _, [] => some text
  | fuel + 1, digits =>
    match punyNumber? bias 0 1 0 digits with
    | none => none
    | some (step, rest) =>
      let place := next + step
      let code := code + place / (text.length + 1)
      let place := place % (text.length + 1)
      if 0x10FFFF < code then none
      else
        let text := text.take place ++ Char.ofNat code :: text.drop place
        punyInsert (punyBias step text.length first) code (place + 1) false text fuel rest

/-- The text that a label stands for, its mark left out: the characters before the last hyphen
are in the text, and the digits after it say where the others go. -/
def punyDecode? (label : Text) : Option Text :=
  if label.all (·.toNat < 128) then
    let digits := (label.reverse.takeWhile (· ≠ '-')).reverse
    punyInsert 72 128 0 true (label.take (label.length - digits.length - 1)) (label.length + 1)
      digits
  else none

def isLabelDot (c : Char) : Bool :=
  c == '.' || c == '\u3002' || c == '\uFF0E' || c == '\uFF61'

def readableLabel? (label : Text) : Option Text :=
  match Text.dropStart? "xn--" label with
  | some digits => punyDecode? (digits.map Char.toLower)
  | none => some label

def readableHost? (host : Text) : Option Text :=
  ((Text.splitOn isLabelDot host).mapM readableLabel?).map (Text.join ['.'])

end MdxCheck.Url
