import MdxCheck.Text.Basic

/-!
Percent signs in addresses: bytes written as two hexadecimal digits, and the text they spell.
-/

namespace MdxCheck.Url

/-- The characters that stay written as a byte, since they would change the address. -/
def keepsPercent (byte : Nat) : Bool :=
  (";/?:@&=+$,#%".toList.map Char.toNat).contains byte

def percentByte (byte : Nat) : Text :=
  '%' :: (Text.padded 16 2 byte).map Char.toUpper

/-- The replacement character, once for each of `count` bytes. -/
def replaced (count : Nat) : Text :=
  List.replicate count '\uFFFD'

/-- A code point spelled by `count` bytes, or replacements where these bytes spell none. -/
def spelled (count least code : Nat) : Text :=
  if least ≤ code ∧ code ≤ 0x10FFFF ∧ ¬(0xD800 ≤ code ∧ code ≤ 0xDFFF) then [Char.ofNat code]
  else replaced count

def continues (byte : Nat) : Bool :=
  byte / 64 == 2

def spellFirst (a : Nat) (rest : List Nat) : Text × Nat :=
  if a < 128 then (if keepsPercent a then percentByte a else [Char.ofNat a], 0)
  else
    let follow := rest.takeWhile continues
    if a / 32 = 6 then
      match follow with
      | b :: _ => (spelled 2 0x80 (a % 32 * 64 + b % 64), 1)
      | _ => (replaced 1, 0)
    else if a / 16 = 14 then
      match follow with
      | b :: c :: _ => (spelled 3 0x800 ((a % 16 * 64 + b % 64) * 64 + c % 64), 2)
      | _ => (replaced 1, 0)
    else if a / 8 = 30 then
      match follow with
      | b :: c :: d :: _ =>
        (spelled 4 0x10000 (((a % 8 * 64 + b % 64) * 64 + c % 64) * 64 + d % 64), 3)
      | _ => (replaced 1, 0)
    else (replaced 1, 0)

/-- The text that some bytes spell; the first `skipped` of them are spelled already. -/
def spellFrom (skipped : Nat) : List Nat → Text
  | [] => []
  | a :: rest =>
    match skipped with
    | skipped + 1 => spellFrom skipped rest
    | 0 =>
      let (text, more) := spellFirst a rest
      text ++ spellFrom more rest

def spell (bytes : List Nat) : Text :=
  spellFrom 0 bytes

/-- The text with its bytes spelled out; `bytes` are those read so far, the last first. -/
def decodeFrom (bytes : List Nat) : Text → Text
  | [] => spell bytes.reverse
  | [c] => spell bytes.reverse ++ [c]
  | [c, d] => spell bytes.reverse ++ [c, d]
  | c :: d :: e :: rest =>
    match Text.digitValue? 16 d, Text.digitValue? 16 e with
    | some high, some low =>
      if c = '%' then decodeFrom ((16 * high + low) :: bytes) rest
      else spell bytes.reverse ++ c :: decodeFrom [] (d :: e :: rest)
    | _, _ => spell bytes.reverse ++ c :: decodeFrom [] (d :: e :: rest)

def decode (text : Text) : Text :=
  decodeFrom [] text

end MdxCheck.Url
