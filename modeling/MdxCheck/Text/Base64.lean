import MdxCheck.Text.Quoted

/-!
Bytes written in base 64. Characters that are no digits do not count; padding ends the text where a
group of four digits could end.
-/

namespace MdxCheck.Text

def base64Digit? (c : Char) : Option Nat :=
  if 'A' ≤ c ∧ c ≤ 'Z' then some (c.toNat - 65)
  else if 'a' ≤ c ∧ c ≤ 'z' then some (c.toNat - 71)
  else if '0' ≤ c ∧ c ≤ '9' then some (c.toNat + 4)
  else if c = '+' then some 62
  else if c = '/' then some 63
  else none

inductive Base64Fault where
  | notAscii (first : Char) (place count : Nat)
  | extraDigit (digits : Nat)
  | padding
deriving DecidableEq, Repr

def Base64Fault.message : Base64Fault → Text
  | notAscii first place count =>
    let what : Text :=
      if count = 1 then
        "character '" ++ escapeCode first.toNat ++ "' in position " ++ decimal place
      else "characters in position " ++ decimal place ++ "-" ++ decimal (place + count - 1)
    "'ascii' codec can't encode " ++ what ++ ": ordinal not in range(128)"
  | extraDigit digits =>
    "Invalid base64-encoded string: number of data characters (" ++ decimal digits ++
      ") cannot be 1 more than a multiple of 4"
  | padding => "Incorrect padding"

/-- The bytes of a text. A group holds `digits` digits so far, with the bits in `left` not yet used,
and `pads` padding characters have come since the last digit; `total` bytes are read. -/
def base64From (total digits left pads : Nat) : Text → Except Base64Fault (List Nat)
  | [] =>
    if digits = 0 then .ok []
    else if digits = 1 then .error (.extraDigit (total / 3 * 4 + 1))
    else .error .padding
  | c :: rest =>
    if c = '=' then
      if 2 ≤ digits ∧ 4 ≤ digits + pads + 1 then .ok []
      else base64From total digits left (if 2 ≤ digits then pads + 1 else pads) rest
    else
      match base64Digit? c with
      | none => base64From total digits left pads rest
      | some digit =>
        if digits = 0 then base64From total 1 digit 0 rest
        else
          let (byte, kept) :=
            if digits = 1 then (left * 4 + digit / 16, digit % 16)
            else if digits = 2 then (left * 16 + digit / 4, digit % 4)
            else (left * 64 + digit, 0)
          (base64From (total + 1) ((digits + 1) % 4) kept 0 rest).map (byte :: ·)

def decodeBase64 (text : Text) : Except Base64Fault (List Nat) :=
  let ascii := text.takeWhile (·.toNat < 128)
  match text.drop ascii.length with
  | first :: rest =>
    .error (.notAscii first ascii.length ((rest.takeWhile (128 ≤ ·.toNat)).length + 1))
  | [] => base64From 0 0 0 0 text

end MdxCheck.Text
