import MdxCheck.Text.CharTable

/-!
Letter case: a form of a text that no longer tells upper from lower case.
-/

namespace MdxCheck.Text

/-- The letters beyond ASCII whose caseless form is another single character. -/
def caseShifts : List Shift := shiftsFrom 0 (tableNumbers <|
  "51 0 1 kn 17 m 1 -w 2 6 1 -w 1 0 1 3d 2 n 2 -1 2 0 1 -6g 2 2 2 -1 3 7 2 -1 3 m 2 -1 3 2 2 " ++
  "-1 1 0 1 -8c 1 0 1 5f 3 1 2 -1 3 0 1 -1 4 0 1 -1 6 0 1 -1 3 0 1 2p 4 0 1 -1 1 0 1 4j 4 0 1 " ++
  "3m 3 2 2 -1 3 0 1 -1 5 0 1 -1 3 0 1 -1 4 1 2 -1 3 0 1 -1 4 0 1 -1 2 0 1 1k 6 0 1 -1 1 0 1 " ++
  "-2 2 0 1 -1 1 0 1 -2 2 0 1 -1 1 0 1 -2 2 7 2 -1 1 0 1 -27 2 8 2 -1 3 0 1 -1 1 0 1 -2 2 0 1 " ++
  "-1 4 j 2 -1 4 8 2 -1 9 0 1 -1 3 1 1 8cf 2 0 1 -1 5 4 2 -1 1 0 1 8bj 1 0 1 8bg 1 0 1 8bi 1 0 " ++
  "1 -5u 1 0 1 -5q 2 1 1 -5p 2 0 1 -5m 2 0 1 -5n 1 0 1 wnj 4 0 1 -5p 1 0 1 wnf 2 0 1 -5r 2 0 1 " ++
  "wmg 1 0 1 wn8 2 0 1 -5t 1 0 1 -5v 1 0 1 wn8 1 0 1 8af 1 0 1 wn5 3 0 1 -5v 2 0 1 8al 1 0 1 " ++
  "-5x 3 0 1 -5y 8 0 1 89z 3 0 1 -62 2 0 1 wn7 1 0 1 -62 4 0 1 wmi 1 0 1 -62 1 0 1 -1x 1 1 1 " ++
  "-61 1 0 1 -1z 6 0 1 -63 b 0 1 wlx 1 0 1 wlu 4n 0 1 2c 18 1 2 -1 4 0 1 -1 4 2 1 3m 1b 0 1 " ++
  "-12 1 2 1 -11 2 g 1 -w 1 0 1 -v 1 8 1 -w 1 0 1 -1s 1 1 1 -1r 2 0 1 -1q 1 0 1 -1l 4 0 1 -1b " ++
  "1 0 1 -1i 1 0 1 -8 2 b 2 -1 1 0 1 -2e 1 0 1 -28 1 0 1 7 1 0 1 -38 1 0 1 -2k 1 0 1 -2o 3 0 1 " ++
  "-1 3 0 1 -1 1h v 1 -w 1 f 1 -28 2 g 2 -1 a q 2 -1 3 6 2 -1 1 0 1 -f 2 1b 2 -1 1e 11 1 -1c " ++
  "28a 16 1 2bk 3 2 1 2bk l5 5 1 -8 1oj 0 1 -4tq 1 0 1 -4tp 1 0 1 -4tg 1 1 1 -4te 1 0 1 -4tf 1 " ++
  "0 1 -4t8 1 0 1 -4rp 1 0 1 r7m 6p 0 1 r9g 4 0 1 2xy h 0 1 raw 37 22 2 -1 6 0 1 -1n 6 1b 2 -1 " ++
  "1 7 1 8 9 5 1 8 b 7 1 8 9 7 1 8 9 5 1 8 c 3 2 8 9 7 1 8 9 1 1 22 1 3 1 2e 1 1 1 2s 1 1 1 3k " ++
  "1 1 1 34 1 1 1 3i 1f 1 1 8 d 0 1 -5k5 i 1 1 8 f 1 1 8 4 0 1 7 8x 0 1 -5tp 4 0 1 -6hr 1 0 1 " ++
  "-6ee z 0 1 -s y f 1 -g 5 0 1 -1 ng p 1 -q 1fr 1b 1 -1c 2 0 1 -1 4 0 1 -8bv 1 0 1 -8bs 2 2 2 " ++
  "-1 7 0 1 -1 3 0 1 -1 b 1d 2 -1 9 1 2 -1 5 0 1 -1 d 11 1 -5ls 2 0 1 -5ls 6 0 1 -5ls nx0 m 2 " ++
  "-1 k d 2 -1 3s 6 2 -1 4 u 2 -1 b 1 2 -1 3 4 2 -1 5 0 1 -1 5 1 2 -1 1 0 1 1c 3 9 2 -1 c 7 2 " ++
  "-1 5 1 2 -1 7 0 1 -1 6 1 2 -1 t 0 1 -1 nx 0 1 -ps t 27 1 -tzk ghu p 1 -w y6 13 1 -14 3t z 1 " ++
  "-14 4c i 2 -13 -z 4 2 -13 4 6 2 -13 4 2 2 -13 4 0 1 -13 1dw 1e 1 -1s 2by v 1 -w gw1 v 1 -w " ++
  "o83 x 1 -y")

/-- The letters whose caseless form has several characters, each as the gap to the letter before,
the length of its form and the code points of the form. -/
def expansionsFrom (fuel : Nat) (start : Int) (numbers : List Int) : List (Nat × Text) :=
  match fuel, numbers with
  | fuel + 1, gap :: length :: rest =>
    ((start + gap).toNat, (rest.take length.toNat).map fun code => Char.ofNat code.toNat) ::
      expansionsFrom fuel (start + gap) (rest.drop length.toNat)
  | _, _ => []

/-- The letters with a caseless form of several characters, with these forms. -/
def caseExpansions : List (Nat × Text) := expansionsFrom 104 0 (tableNumbers <|
  "67 2 2b 2b 29 2 21 lj p 2 jg 26 4n 2 22 lo bk 3 pl lk ld w 3 px lk ld d3 2 111 11u 4y7 2 20 " ++
  "mp 1 2 2c lk 1 2 2f lm 1 2 2h lm 1 2 1t ji 4 2 2b 2b 4y 2 px lv 2 3 px lv lc 2 3 px lv ld 2 " ++
  "3 px lv n6 16 2 64o pl 1 2 64p pl 1 2 64q pl 1 2 64r pl 1 2 64s pl 1 2 64t pl 1 2 64u pl 1 " ++
  "2 64v pl 1 2 64o pl 1 2 64p pl 1 2 64q pl 1 2 64r pl 1 2 64s pl 1 2 64t pl 1 2 64u pl 1 2 " ++
  "64v pl 1 2 65k pl 1 2 65l pl 1 2 65m pl 1 2 65n pl 1 2 65o pl 1 2 65p pl 1 2 65q pl 1 2 65r " ++
  "pl 1 2 65k pl 1 2 65l pl 1 2 65m pl 1 2 65n pl 1 2 65o pl 1 2 65p pl 1 2 65q pl 1 2 65r pl " ++
  "1 2 67c pl 1 2 67d pl 1 2 67e pl 1 2 67f pl 1 2 67g pl 1 2 67h pl 1 2 67i pl 1 2 67j pl 1 2 " ++
  "67c pl 1 2 67d pl 1 2 67e pl 1 2 67f pl 1 2 67g pl 1 2 67h pl 1 2 67i pl 1 2 67j pl 3 2 69m " ++
  "pl 1 2 pd pl 1 2 p2 pl 2 2 pd n6 1 3 pd n6 pl 5 2 pd pl 6 2 6a2 pl 1 2 pj pl 1 2 p5 pl 2 2 " ++
  "pj n6 1 3 pj n6 pl 5 2 pj pl 6 3 pl lk lc 1 3 pl lk ld 3 2 pl n6 1 3 pl lk n6 b 3 px lk lc " ++
  "1 3 px lk ld 1 2 pt lv 2 2 px n6 1 3 px lk n6 b 2 6be pl 1 2 q1 pl 1 2 pb pl 2 2 q1 n6 1 3 " ++
  "q1 n6 pl 5 2 q1 pl 179g 2 1y 1y 1 2 1y 21 1 2 1y 24 1 3 1y 1y 21 1 3 1y 1y 24 1 2 2b 2c 1 2 " ++
  "2b 2c d 2 11g 11i 1 2 11g 111 1 2 11g 117 1 2 11q 11i 1 2 11g 119")

/-- The upper case of the lower case of a character. -/
def foldChar (c : Char) : Text :=
  if c.toNat < 128 then [c.toUpper]
  else
    match shiftIn c.toNat caseShifts with
    | some code => [Char.ofNat code]
    | none =>
      match caseExpansions.find? fun expansion => expansion.1 == c.toNat with
      | some (_, form) => form
      | none => [c]

/-- The caseless form of a text: lower case first, then upper case. -/
def foldCase (text : Text) : Text :=
  text.flatMap foldChar

/-- The ASCII letter that a character agrees with when case is ignored; the dotted and dotless i,
the long s and the Kelvin sign agree with ASCII letters. -/
def foldLetter (c : Char) : Char :=
  let n := c.toNat
  if n == 0x130 || n == 0x131 then 'i'
  else if n == 0x17F then 's'
  else if n == 0x212A then 'k'
  else c.toLower

end MdxCheck.Text
