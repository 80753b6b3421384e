/-!
Text as a list of code points: white space, text without it at its ends, and text cut and joined
at separators.
-/

namespace MdxCheck

/-- A text is the list of its code points, so offsets and columns count code points. -/
abbrev Text := List Char

instance : Coe String Text := ⟨String.toList⟩

namespace Text

/-- The white-space characters: the control characters from tab to carriage return and from
the file separator to the unit separator, the next-line character and the Unicode spaces. -/
def isBlank (c : Char) : Bool :=
  let n := c.toNat
  (9 ≤ n && n ≤ 13) || (28 ≤ n && n ≤ 32) || n == 0x85 || n == 0xA0 || n == 0x1680 ||
    (0x2000 ≤ n && n ≤ 0x200A) || n == 0x2028 || n == 0x2029 || n == 0x202F || n == 0x205F ||
    n == 0x3000

def trimStart (text : Text) : Text :=
  text.dropWhile isBlank

def trimEnd (text : Text) : Text :=
  (text.reverse.dropWhile isBlank).reverse

def trim (text : Text) : Text :=
  trimEnd (trimStart text)

/-- A text of white space only; the empty text is one. -/
def isBlankText (text : Text) : Bool :=
  text.all isBlank

def indentWidth (line : Text) : Nat :=
  (line.takeWhile isBlank).length

/-- What follows the opening `start` of the text, if the text opens with it. -/
def dropStart? : Text → Text → Option Text
  | [], text => some text
  | _ :: _, [] => none
  | s :: start, c :: text => if s = c then dropStart? start text else none

/-- Whether the text opens with `start`. -/
def startsWith (start text : Text) : Bool :=
  (dropStart? start text).isSome

/-- Whether `part` stands somewhere in the text. -/
def contains (part : Text) : Text → Bool
  | [] => startsWith part []
  | c :: rest => startsWith part (c :: rest) || contains part rest

/-- The pieces between the characters that satisfy `isSeparator`; there is one more of them than
there are separators. -/
def splitOn (isSeparator : Char → Bool) : Text → List Text
  | [] => [[]]
  | c :: rest =>
    match splitOn isSeparator rest with
    | [] => [[]]
    | piece :: pieces =>
      if isSeparator c then [] :: piece :: pieces else (c :: piece) :: pieces

/-- The pieces with `separator` between neighbours. -/
def join (separator : Text) (pieces : List Text) : Text :=
  separator.intercalate pieces

/-- The text before and after the first `stop`, if there is one. -/
def cut? (stop : Char) : Text → Option (Text × Text)
  | [] => none
  | c :: rest =>
    if c = stop then some ([], rest)
    else (cut? stop rest).map fun (before, after) => (c :: before, after)

def digitChar (digit : Nat) : Char :=
  if digit < 10 then Char.ofNat (48 + digit) else Char.ofNat (87 + digit)

def digitValue? (base : Nat) (c : Char) : Option Nat :=
  let n := c.toNat
  let digit :=
    if 48 ≤ n && n ≤ 57 then n - 48
    else if 97 ≤ n && n ≤ 122 then n - 87
    else if 65 ≤ n && n ≤ 90 then n - 55
    else base
  if digit < base then some digit else none

/-- A number from its digits, the most significant first; what is no digit counts as zero. -/
def toNat (base : Nat) (digits : Text) : Nat :=
  digits.foldl (fun value c => value * base + (digitValue? base c).getD 0) 0

def digitsBelow (base : Nat) : Nat → Nat → Text
  | 0, _ => []
  | fuel + 1, n =>
    digitChar (n % base) :: if n < base then [] else digitsBelow base fuel (n / base)

def ofNat (base n : Nat) : Text :=
  (digitsBelow base (n + 1) n).reverse

def decimal (n : Nat) : Text := ofNat 10 n

def decimalInt : Int → Text
  | .ofNat n => decimal n
  | .negSucc n => '-' :: decimal (n + 1)

/-- A number padded with zeros on the left to `width` digits. -/
def padded (base width n : Nat) : Text :=
  let digits := ofNat base n
  List.replicate (width - digits.length) '0' ++ digits

def before (a b : Text) : Bool :=
  match a, b with
  | _, [] => false
  | [], _ :: _ => true
  | x :: a, y :: b => x.toNat < y.toNat || (x == y && before a b)

/-- Whether a list of texts comes before another: the first texts that differ decide, and a list comes
before those that continue it. -/
def rowBefore : List Text → List Text → Bool
  | _, [] => false
  | [], _ :: _ => true
  | a :: as, b :: bs => if a = b then rowBefore as bs else before a b

end Text

end MdxCheck
