import MdxCheck.Text.Basic

/-!
Texts as bytes in UTF-8. Reading refuses ill-formed bytes or puts the replacement character for
them, once for each longest start of a character and for each byte that starts none.
-/

namespace MdxCheck.Text

inductive Utf8Fault where
  | start
  | continuation
  | truncated
deriving DecidableEq, Repr

/-- Ill-formed bytes: the first of them, its place, how many go together, and what is wrong. -/
structure Utf8Error where
  byte : Nat
  place : Nat
  count : Nat
  fault : Utf8Fault
deriving DecidableEq, Repr

def Utf8Error.message (error : Utf8Error) : Text :=
  let what : Text :=
    if error.count = 1 then
      "byte 0x" ++ padded 16 2 error.byte ++ " in position " ++ decimal error.place
    else
      "bytes in position " ++ decimal error.place ++ "-" ++ decimal (error.place + error.count - 1)
  let why : Text := match error.fault with
    | .start => "invalid start byte"
    | .continuation => "invalid continuation byte"
    | .truncated => "unexpected end of data"
  "'utf-8' codec can't decode " ++ what ++ ": " ++ why

/-- What a first byte announces: how many bytes follow, the range of the next one, and the bits of
the code point that it holds. -/
structure Utf8Lead where
  owed : Nat
  low : Nat
  high : Nat
  bits : Nat

def utf8Lead? (byte : Nat) : Option Utf8Lead :=
  if byte < 0x80 then some ⟨0, 0x80, 0xBF, byte⟩
  else if byte < 0xC2 then none
  else if byte < 0xE0 then some ⟨1, 0x80, 0xBF, byte - 0xC0⟩
  else if byte < 0xF0 then
    some ⟨2, if byte = 0xE0 then 0xA0 else 0x80, if byte = 0xED then 0x9F else 0xBF, byte - 0xE0⟩
  else if byte < 0xF5 then
    some ⟨3, if byte = 0xF0 then 0x90 else 0x80, if byte = 0xF4 then 0x8F else 0xBF, byte - 0xF0⟩
  else none

/-- The character that some bytes go on to spell, or why they do not, and how many bytes were
taken. -/
def utf8Tail (owed low high bits : Nat) : List Nat → Except Utf8Fault Char × Nat
  | [] => (if owed = 0 then .ok (Char.ofNat bits) else .error .truncated, 0)
  | byte :: bytes =>
    if owed = 0 then (.ok (Char.ofNat bits), 0)
    else if low ≤ byte ∧ byte ≤ high then
      let (result, count) := utf8Tail (owed - 1) 0x80 0xBF (bits * 64 + byte % 64) bytes
      (result, count + 1)
    else (.error .continuation, 0)

/-- The first character of some bytes, and how many bytes after the first belong to it. -/
def utf8First (byte : Nat) (bytes : List Nat) : Except Utf8Fault Char × Nat :=
  match utf8Lead? byte with
  | none => (.error .start, 0)
  | some lead => utf8Tail lead.owed lead.low lead.high lead.bits bytes

/-- The text of some bytes from `place` on; the first `skipped` are read already. -/
def decodeUtf8From (skipped place : Nat) : List Nat → Except Utf8Error Text
  | [] => .ok []
  | byte :: bytes =>
    match skipped with
    | skipped + 1 => decodeUtf8From skipped (place + 1) bytes
    | 0 =>
      match utf8First byte bytes with
      | (.ok c, count) => (decodeUtf8From count (place + 1) bytes).map (c :: ·)
      | (.error fault, count) => .error ⟨byte, place, count + 1, fault⟩

def decodeUtf8 (bytes : List Nat) : Except Utf8Error Text :=
  decodeUtf8From 0 0 bytes

/-- The text of some bytes with replacements; the first `skipped` are read already. -/
def repairUtf8From (skipped : Nat) : List Nat → Text
  | [] => []
  | byte :: bytes =>
    match skipped with
    | skipped + 1 => repairUtf8From skipped bytes
    | 0 =>
      match utf8First byte bytes with
      | (.ok c, count) => c :: repairUtf8From count bytes
      | (.error _, count) => '\uFFFD' :: repairUtf8From count bytes

def repairUtf8 (bytes : List Nat) : Text :=
  repairUtf8From 0 bytes

def utf8Bytes (c : Char) : List Nat :=
  let n := c.toNat
  if n < 0x80 then [n]
  else if n < 0x800 then [0xC0 + n / 64, 0x80 + n % 64]
  else if n < 0x10000 then [0xE0 + n / 4096, 0x80 + n / 64 % 64, 0x80 + n % 64]
  else [0xF0 + n / 262144, 0x80 + n / 4096 % 64, 0x80 + n / 64 % 64, 0x80 + n % 64]

def encodeUtf8 (text : Text) : List Nat :=
  text.flatMap utf8Bytes

end MdxCheck.Text
