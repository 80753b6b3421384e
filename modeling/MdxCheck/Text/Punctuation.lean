import MdxCheck.Text.CharTable

/-!
Punctuation and symbols.
-/

namespace MdxCheck.Text

def punctuationTable : CharSet := CharSet.ofTable <|
  "4h 9 1 2 1 4 2 1 1 3 2 1 3 1 n 1 v 1 cq 4 c e 5 7 1 1 1 h 39 1 8 1 5 2 1 1 32 1 3v 1 5z 6 " ++
  "15 2 2 3 1a 1 1 1 2 1 2 1 18 2 h a b 1 1 3 22 4 2u 1 9 1 a 1 j 2 1 e 6g 4 4 2 1c f v 1 15 1 " ++
  "63 2 a 1 3l 2 6 2 1 1 3c 1 3d 2 3i 1 3m 8 3g 1 7 1 4 1 5m 1 15 1 3e 1 22 1 f 1 a 2 4l n 2 6 " ++
  "k 1 1 1 1 1 1 4 1z 1 1k 8 1 6 1 d 33 6 26 2 2j 1 h0 9 13 a 2u 1 h8 2 18 2 26 3 1z 2 4d 3 1 " ++
  "4 10 b 8l 1 3 2 48 y u 2 3k 7 1 6 4s h 9 b 3h 4 1n 5 1q 2 1s 8 b 1 kp 1 1 3 b 3 d 3 d 3 d 2 " ++
  "h o 8 1b r 5 b 5 h x 1r 2 1 4 1 2 a 1 1 3 5 6 1 1 1 1 1 1 4 1 b 2 4 5 5 4 1 1 1m 2 4 if p b " ++
  "29 26 m hi u rk 2 w 1 2x 6d 6 e 4 1 2 34 1 3z 1b 1 1a y q 1 2h c 5y q c 5 4 3 p f 1 5 2 5 3 " ++
  "2j 2 3 1 2i 1 44 2 4 a w 10 s v b u 8 1 f w a 13 f 8w 534 1s h3k 1j 1j 2 7h 3 2r 1 a 1 37 6 " ++
  "8 n 9 2 2v 2 4d 4 a 4 1m 4 2e 2 14 3 1 1 1d 2 1b 1 2p d g 2 3g 4 n 3 2s 2 g 2 2x 1 e 2 3j 1 " ++
  "fnh 1 3s h aj i 3j 1 18 4 g a m z 1 j 1 4 45 f a 7 q 6 q b 3e 7 1 7 d 2 76 3 1g 9 1l h 2 3 " ++
  "1 d 3 1 1b 19 bm 1 1c 1 bi 1 kn 1 v 2 4m 1 v 1 7k 9 12 1 20 1 13 7 1u 7 2h 4 ls 1 4n 5 18 4 " ++
  "59 7 31 2 1 4 3i 4 1c 2 27 4 4 1 d 1 1 3 2g 6 2z 1 bl 5 a 2 1 1 2w 1 6y n 2x 3 s d 24 1 3m " ++
  "4 6z 1 7c 3 4b 1 2k 8 2b 3 1 5 bi 5 16 2 hx 2 64 t d 1 vk 5 29o 2 bjv 2 3p 1 1t 9 4 2 nl 4 " ++
  "93 1 f5l 1 2 1 3ow 38 1o 6u a 13 2 1o 5 3 m 2 7 u 4 1p l 1u 3 1 56 2f oa 1 p 1 v 1 p 1 v 1 " ++
  "p 1 v 1 p 1 v 1 p 1 1o e8 1j 4 1e 8 1 e 1 7 1c3 1 bz 1 19a 2 ng 1 3 1 3h 1 ch 2 7i 18 4 2s " ++
  "c f 2 f 1 f 1 11 n 4h 1k t d 18 4 9 7 2 e 6 4a rc 5 g 3 d 3 38 c 2h 7 c 4 1 f c 4 1k 8 a 6 " ++
  "14 8 u 2 2 26 9g c e 2 5 3 5 3 7 9 t 3 b 5 6 a a 6 8 8 7 9 43 1 1j"

def isAsciiPunctuation (c : Char) : Bool :=
  let n := c.toNat
  (33 ≤ n && n ≤ 47) || (58 ≤ n && n ≤ 64) || (91 ≤ n && n ≤ 96) || (123 ≤ n && n ≤ 126)

def isPunctuation (c : Char) : Bool :=
  if c.toNat < 128 then isAsciiPunctuation c else punctuationTable.contains c

end MdxCheck.Text
