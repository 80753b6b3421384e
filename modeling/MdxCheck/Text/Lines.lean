import MdxCheck.Text.Basic

/-!
A text as its lines. Lines end at any of the boundary characters, a carriage return before a line
feed counting with it; an end of line at the end of the text opens no further line.
-/

namespace MdxCheck.Text

/-- The characters that end a line: line feed, vertical tab, form feed, carriage return, the three
separators above the unit separator, next line, and the line and paragraph separators. -/
def isLineEnd (c : Char) : Bool :=
  let n := c.toNat
  (10 ≤ n && n ≤ 13) || (28 ≤ n && n ≤ 30) || n == 0x85 || n == 0x2028 || n == 0x2029

def consFirst (c : Char) : List Text → List Text
  | [] => [[c]]
  | line :: lines => (c :: line) :: lines

def lines : Text → List Text
  | [] => []
  | [c] => if isLineEnd c then [[]] else [[c]]
  | c :: d :: rest =>
    if isLineEnd c then
      if c = '\r' ∧ d = '\n' then [] :: lines rest else [] :: lines (d :: rest)
    else consFirst c (lines (d :: rest))

def unlines (lines : List Text) : Text :=
  join ['\n'] lines

end MdxCheck.Text
