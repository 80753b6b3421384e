import MdxCheck.Text.CharTable

/-!
The decimal digits of every script and their values.
-/

namespace MdxCheck.Text

/-- The code points of the digit zero beyond ASCII; the other nine digits of a script follow its
zero. -/
def zeroTable : List Nat :=
  (intervalsFrom 0 (tableNumbers <|
    "19c a 3q a 5i a bg a 3a a 3a a 3a a 3a a 3a a 3a a 3a a 3a a 3a a 2o a 3a a 1y a 7q a 1y a " ++
    "1fq a 12 a 8c a 3k a 4m a 6 a 52 a 2e a 3q a 6 a r7q a iu a 12 a 5i a m a 2e a ba a geu a " ++
    "13a a 1om a mk a 3k a 1o a 40 a 7q a 9i a 3a a ae a 2u a 2u a bq a 2u a l2 a 6u a 1y a f5i " ++
    "a 2e a 3q a lf8 1e 1ts a bq a 192 a 3o6 a")).flatMap fun (first, past) =>
      (List.range ((past - first) / 10)).map fun script => first + 10 * script

def decimalDigit? (c : Char) : Option Nat :=
  let n := c.toNat
  if n < 128 then (if 48 ≤ n && n ≤ 57 then some (n - 48) else none)
  else (zeroTable.find? fun first => first ≤ n && n < first + 10).map fun first => n - first

def isDecimalDigit (c : Char) : Bool :=
  (decimalDigit? c).isSome

end MdxCheck.Text
