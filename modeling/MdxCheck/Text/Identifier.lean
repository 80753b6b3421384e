import MdxCheck.Text.Word

/-!
Letters of every script, and the characters that identifiers are made of.
-/

namespace MdxCheck.Text

/-- The decimal digits and other numbers beyond ASCII. -/
def numberTable : CharSet := CharSet.ofTable <|
  "4y 2 5 1 2 3 141 a 3q a 5i a bg a 3a a 4 6 30 a 3a a 3a a 2 6 32 d 37 a 8 7 2v a 2w 7 7 j " ++
  "31 a 2o a 3a a 1y k 7g a 1y a jz k oh 3 6n a 6 a m a 8c a 3k b 4l a 6 a 52 a 2e a 3q a 6 " ++
  "a t2 1 3 6 6 a 5i 1f 2 5 k6 1o 26 m hi u 12h 1 ll 1 p 9 e 3 9j 4 3u a u 8 1 f w a 13 f " ++
  "msg a 58 a 8w 6 4a a 12 a 5i a m a 2e a ba a geu a dp 19 c 1l h 2 9h r 10 4 t 1 8 1 3q 5 " ++
  "5m a q6 8 p 7 13 9 23 5 m 6 4g 2 2 g 2 1a 1s 9 1g 2 u 3 23 5 2w 8 o 8 15 7 96 6 1c a 86 v " ++
  "4e a 16 4 34 7 3q u 3k a 1o a 40 a 7 k 6z a 9i a 3a a ae a 2u a 2u c bo j 2l a l2 t 6b a " ++
  "1y a eu l tn 33 dtd a 2e a 3q a 1 7 m6 n jt5 k 30 p ut 1e 1ts a bq a 159 9 3k a lz 1n 1 3 " ++
  "1 4 24 19 1 f qq d 25f a"

def isLetter (c : Char) : Bool :=
  if c.toNat < 128 then c.isAlpha else isAlphanumeric c && !numberTable.contains c

/-- The alphanumeric characters that start no identifier: digits, most other numbers, and signs that
come apart into several characters. -/
def noStartTable : CharSet := CharSet.ofTable <|
  "1c a 3c 2 5 1 2 3 jf 1 kl a 3q a 5i a bg a 3a a 4 6 30 a 3a a 3a a 2 6 32 d 37 a 8 7 2v a " ++
  "2w 7 7 j 31 a 1v 1 s a 2h 1 s a 1y k 7g a 1y a jz k v7 a 6 a m a 8c a 3k b 4l a 6 a 52 a " ++
  "2e a 3q a 6 a t2 1 3 6 6 a 5i g 15 1 k6 1o 26 m hi u 12h 1 8h 1 o2 4 3u a u 8 1 f w a 13 " ++
  "f msg a ee 6 4a a 12 a 5i a m a 2e a ba a fvo 6 ba 2 38 1 1 1 1 1 1 1 1 1 1 1 1 1 1 1 41 " ++
  "a 3o 2 9z 19 1t 4 h 2 9h r 10 4 ak a q6 8 p 7 13 9 23 5 m 6 4g 2 2 g 2 1a 1s 9 1g 2 u 3 " ++
  "23 5 2w 8 o 8 15 7 96 6 1c a 86 v 4e a 16 4 34 7 3q u 3k a 1o a 40 a 7 k 6z a 9i a 3a a " ++
  "ae a 2u a 2u c bo j 2l a l2 t 6b a 1y a eu l eq3 a 2e a 3q a 1 7 m6 n jt5 k 30 p ut 1e " ++
  "1ts a bq a 159 9 3k a lz 1n 1 3 1 4 24 19 1 f qq d 25f a"

/-- The alphanumeric characters that stand in no identifier. -/
def noPartTable : CharSet := CharSet.ofTable <|
  "4y 2 5 1 2 3 jf 1 1a1 6 ag 6 3c 3 3p 7 61 7 h 9 c1 a u6 b vn a 1o6 1 3 6 6 a 5i g 15 1 k6 " ++
  "1o 26 m hi u 12h 1 8h 1 o2 4 3u a u 8 1 f w a 13 f n74 6 gmg 6 ba 2 38 1 1 1 1 1 1 1 1 1 " ++
  "1 1 1 1 1 1 i0 19 1t 4 h 2 9h r 10 4 110 8 p 7 13 9 23 5 m 6 4g 2 2 g 2 1a 1s 9 1g 2 u 3 " ++
  "23 5 2w 8 o 8 15 7 96 6 9s v 4e a 16 4 34 7 3q k aj k 11h 2 by 9 o7 j nn l ex2 7 m6 n jt5 " ++
  "k 30 p 47i 9 pt 1n 1 3 1 4 24 19 1 f qq d"

/-- The characters that stand in identifiers and are not alphanumeric, for the most part combining
marks. -/
def markTable : CharSet := CharSet.ofTable <|
  "53 1 g8 34 n 1 6z 5 7d 19 1 1 1 2 1 2 1 1 20 b 1c l g 1 2t 7 2 6 2 2 1 4 z 1 u r 2j b 1m " ++
  "9 9 1 o 4 1 9 1 3 1 5 17 3 1o 8 16 o 1 x 1i 3 1 i 1 7 a 2 t 3 1k 1 1 7 2 2 2 3 9 1 a 2 q " ++
  "1 2 3 1k 1 1 5 4 2 2 3 3 1 u 2 3 1 b 3 1k 1 1 8 1 3 1 3 k 2 m 6 1 3 1k 1 1 7 2 2 2 3 7 3 " ++
  "a 2 u 1 1n 5 3 3 1 4 9 1 14 5 1j 1 1 7 1 3 1 4 7 2 b 2 t 3 1k 1 1 7 1 3 1 4 7 2 b 2 s 4 " ++
  "1j 2 1 7 1 3 1 4 9 1 a 2 t 3 1y 1 4 6 1 1 1 8 i 2 1p 1 2 7 c 8 2q 1 2 9 b 6 22 2 r 1 1 1 " ++
  "1 1 4 2 1d k 1 2 5 b 1 10 9 1 2s k n 4 4 3 1 3 2 7 3 4 d c 1 1 a 4 jj 3 qa 4 s 3 t 2 u 2 " ++
  "1s w 9 1 19 3 1 1 39 2 y 1 3a c 4 c 63 5 1l a 1 t 2 1 1c e 1 g 1d 5 1b h 12 9 c 3 u d 1k " ++
  "e 1c k 48 3 1 l 4 1 6 1 2 3 5i 1s fz 2 j 1 3f d 4 1 3 c 13 1 l 1 2bk 3 3x 1 2o w fe 6 2x " ++
  "2 n9w 1 4 a w 2 28 2 7k 1 3 1 4 1 n 5 4 1 2b 2 1e i q i d 1 12 8 p d 18 4 1b e 10 1 1v e " ++
  "c 1 8 2 19 3 1e 1 1 3 2 2 5 2 1 1 15 5 5 2 6k 8 1 2 fn4 1 kh g g g 3 2 o 3 6n 1 jh 1 6a 1 " ++
  "45 5 1ae 3 1 2 5 4 14 3 4 1 4l 2 fx 4 ar 2 49 b 1d 4 3e 3 1h f 15 1 2 2 a 4 19 b 7 1 1p 3 " ++
  "10 e g 2 18 1 c 3 1c e 8 4 1 2 2k c 6 1 4g c l 4 1j 2 1 7 2 2 2 3 9 1 a 2 2 7 3 5 5c i n " ++
  "1 29 k 6j 7 2 9 r 2 2a h 2y d 2t f 74 f 6t 6 1 2 2 4 1 1 1 2 3x 7 2 7 3 1 s a 14 7 1 4 8 " ++
  "1 9 b 1a g b9 8 1 8 2a m 1 e 3e 6 3 1 1 2 1 7 1 1 1u 5 1 2 1 5 9n 4 f09 5 1n 7 t4 1 1 1j " ++
  "7 4 29 1 b 2 f57 2 3mp 1a 2 n f2 5 3 6 8 8 2 7 u 4 44 3 1iz 1j 4 1e 8 1 e 1 m 5 1 f 11s 7 " ++
  "1 h 2 7 1 2 1 5 79 7 af 1 1p 4 15s 7 31 7 gzhx 6o"

def startsIdentifier (c : Char) : Bool :=
  isWordChar c && !noStartTable.contains c || [0x1885, 0x1886, 0x2118, 0x212E].contains c.toNat

def continuesIdentifier (c : Char) : Bool :=
  isWordChar c && !noPartTable.contains c || markTable.contains c

/-- Whether a text is the name that a program could give to something. -/
def isIdentifier : Text → Bool
  | [] => false
  | c :: rest => startsIdentifier c && rest.all continuesIdentifier

end MdxCheck.Text
