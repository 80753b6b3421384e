import MdxCheck.Text.CharTable

/-!
Letters that differ in case only: the lower-case letter of each letter, and the letters that agree with
one in lower case.
-/

namespace MdxCheck.Text

/-- The letters beyond ASCII with a lower-case letter of their own. -/
def lowerShifts : List Shift := shiftsFrom 0 (tableNumbers <|
  "5c m 1 w 2 6 1 w y n 2 1 2 0 1 -5j 2 2 2 1 3 7 2 1 3 m 2 1 2 0 1 -3d 1 2 2 1 4 0 1 5u 1 1 " ++
  "2 1 2 0 1 5q 1 0 1 1 2 1 1 5p 1 0 1 1 3 0 1 27 1 0 1 5m 1 0 1 5n 1 0 1 1 2 0 1 5p 1 0 1 " ++
  "5r 2 0 1 5v 1 0 1 5t 1 0 1 1 4 0 1 5v 1 0 1 5x 2 0 1 5y 1 2 2 1 2 0 1 62 1 0 1 1 2 0 1 62 " ++
  "3 0 1 1 2 0 1 62 1 0 1 1 2 1 1 61 1 1 2 1 2 0 1 63 1 0 1 1 4 0 1 1 8 0 1 2 1 0 1 1 2 0 1 " ++
  "2 1 0 1 1 2 0 1 2 1 8 2 1 3 8 2 1 3 0 1 2 1 1 2 1 2 0 1 -2p 1 0 1 -1k 1 j 2 1 2 0 1 -3m 2 " ++
  "8 2 1 8 0 1 8bv 1 0 1 1 2 0 1 -4j 1 0 1 8bs 3 0 1 1 2 0 1 -5f 1 0 1 1x 1 0 1 1z 1 4 2 1 " ++
  "82 1 2 1 4 0 1 1 9 0 1 38 7 0 1 12 2 2 1 11 2 0 1 1s 2 1 1 1r 2 g 1 w 2 8 1 w 10 0 1 8 9 " ++
  "b 2 1 6 0 1 -1o 3 0 1 1 2 0 1 -7 1 0 1 1 3 2 1 -3m 1 f 1 28 1 v 1 w 1d g 2 1 a q 2 1 2 0 " ++
  "1 f 1 6 2 1 3 1b 2 1 3 11 1 1c 28a 11 1 5ls 2 0 1 5ls 6 0 1 5ls k3 27 1 tzk 1 5 1 8 1p7 " ++
  "16 1 -2bk 3 2 1 -2bk 8x 22 2 1 a 0 1 -5vj 2 1b 2 1 a 7 1 -8 9 5 1 -8 b 7 1 -8 9 7 1 -8 9 " ++
  "5 1 -8 c 3 2 -8 9 7 1 -8 p 7 1 -8 9 7 1 -8 9 7 1 -8 9 1 1 -8 1 1 1 -22 1 0 1 -9 c 3 1 -2e " ++
  "1 0 1 -9 c 1 1 -8 1 1 1 -2s d 1 1 -8 1 1 1 -34 1 0 1 -7 c 1 1 -3k 1 1 1 -3i 1 0 1 -9 8a 0 " ++
  "1 -5st 4 0 1 -6gv 1 0 1 -6di 7 0 1 s 1a f 1 g k 0 1 1 mr p 1 q 1f5 1b 1 1c 1d 0 1 1 2 0 1 " ++
  "-8af 1 0 1 -2xy 1 0 1 -89z 3 2 2 1 2 0 1 -8bg 1 0 1 -8al 1 0 1 -8bj 1 0 1 -8bi 2 0 1 1 3 " ++
  "0 1 1 9 1 1 -8cf 1 1d 2 1 9 1 2 1 5 0 1 1 nym m 2 1 k d 2 1 3s 6 2 1 4 u 2 1 b 1 2 1 2 0 " ++
  "1 -r9g 1 4 2 1 5 0 1 1 2 0 1 -wmg 3 1 2 1 4 9 2 1 2 0 1 -wn8 1 0 1 -wnj 1 0 1 -wnf 1 0 1 " ++
  "-wn5 1 0 1 -wn8 2 0 1 -wlu 1 0 1 -wmi 1 0 1 -wlx 1 0 1 ps 1 7 2 1 2 0 1 -1c 1 0 1 -wn7 1 " ++
  "0 1 -raw 1 1 2 1 7 0 1 1 6 1 2 1 t 0 1 1 h7w p 1 w xy 13 1 14 3t z 1 14 4d a 1 13 2 e 1 " ++
  "13 2 6 1 13 2 1 1 13 1d7 1e 1 1s 2cu v 1 w gw1 v 1 w o81 x 1 y")

/-- Letters in lower case that share their upper-case letter. -/
def lowerAlikes : List (List Nat) :=
  [[0x69, 0x131], [0x73, 0x17F], [0xB5, 0x3BC], [0x345, 0x3B9, 0x1FBE], [0x390, 0x1FD3],
    [0x3B0, 0x1FE3], [0x3B2, 0x3D0], [0x3B5, 0x3F5], [0x3B8, 0x3D1], [0x3BA, 0x3F0],
    [0x3C0, 0x3D6], [0x3C1, 0x3F1], [0x3C2, 0x3C3], [0x3C6, 0x3D5], [0x432, 0x1C80],
    [0x434, 0x1C81], [0x43E, 0x1C82], [0x441, 0x1C83], [0x442, 0x1C84, 0x1C85], [0x44A, 0x1C86],
    [0x463, 0x1C87], [0x1C88, 0xA64B], [0x1E61, 0x1E9B], [0xFB05, 0xFB06]]

/-- The code point that a run moves to `code`, if there is one. -/
def Shift.origin? (shift : Shift) (code : Nat) : Option Nat :=
  let origin := ((code : Int) - shift.distance).toNat
  if shiftIn origin [shift] = some code then some origin else none

/-- Which letters agree though they differ in case: none, those of ASCII, or those of every script. -/
inductive LetterCase where
  | told
  | ascii
  | ignored
deriving DecidableEq, Repr

namespace LetterCase

def asciiShift : Shift := ⟨65, 90, 1, 32⟩

def shifts : LetterCase → List Shift
  | told => []
  | ascii => [asciiShift]
  | ignored => asciiShift :: lowerShifts

def alikes : LetterCase → List (List Nat)
  | ignored => lowerAlikes
  | _ => []

def lower (letterCase : LetterCase) (code : Nat) : Nat :=
  (shiftIn code letterCase.shifts).getD code

/-- The code points that agree with one. -/
def agreeing (letterCase : LetterCase) (code : Nat) : List Nat :=
  let lower := letterCase.lower code
  let alikes := (letterCase.alikes.find? (·.contains lower)).getD [lower]
  alikes.flatMap fun alike => alike :: letterCase.shifts.filterMap (·.origin? alike)

end LetterCase

end MdxCheck.Text
