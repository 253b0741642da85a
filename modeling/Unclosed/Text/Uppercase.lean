import Unclosed.Text.CodeRuns

/-!
The characters with the Unicode property `Uppercase`.
-/

namespace Unclosed.Text

def uppercaseRuns : CodeRuns :=
  [65, 26, 101, 23, 1, 7, 153, 2, 1, 1, 1, 1, 3, 2, 1, 1, 1, 2, 1, 3, 2, 4, 1, 2, 1, 3, 3, 2, 1, 2,
   1, 1, 1, 1, 1, 2, 1, 1, 2, 1, 1, 2, 1, 3, 1, 1, 1, 2, 3, 1, 7, 1, 2, 1, 2, 1, 38, 1, 2, 1, 1, 3,
   65, 2, 1, 2, 2, 1, 1, 4, 297, 1, 1, 1, 3, 1, 8, 1, 6, 1, 1, 3, 1, 1, 1, 2, 1, 17, 1, 9, 35, 1, 2,
   3, 31, 1, 2, 1, 1, 2, 2, 51, 144, 2, 111, 38, 2889, 38, 1, 1, 5, 1, 722, 86, 2195, 1, 6, 43, 2,
   3, 584, 8, 8, 6, 10, 8, 8, 8, 8, 6, 26, 8, 72, 4, 12, 4, 12, 4, 12, 5, 11, 4, 262, 1, 4, 1, 3, 3,
   2, 3, 2, 1, 3, 5, 12, 4, 2, 4, 10, 2, 5, 1, 26, 16, 19, 1, 818, 26, 1840, 48, 48, 1, 1, 3, 8, 4,
   1, 1, 2, 1, 8, 3, 106, 1, 1, 1, 4, 1, 31366, 1, 1, 1, 1, 2, 12, 1, 1, 1, 2, 1, 1, 1, 23, 5, 1, 5,
   15, 4, 1, 1, 1, 2, 40, 1, 22315, 26, 1221, 40, 136, 36, 156, 11, 1, 15, 1, 7, 1, 2, 1770, 51,
   157, 22, 2874, 32, 21888, 32, 64, 25, 25927, 26, 26, 26, 26, 26, 26, 1, 1, 2, 2, 1, 2, 2, 2, 4,
   1, 8, 26, 26, 26, 2, 1, 4, 2, 8, 1, 7, 27, 2, 1, 4, 1, 5, 1, 1, 3, 7, 27, 26, 26, 26, 26, 26, 26,
   26, 26, 26, 26, 26, 30, 25, 33, 25, 33, 25, 33, 25, 33, 25, 33, 1, 4405, 34, 2062, 26, 6, 26, 6,
   26]

/-- The ends of ranges in which uppercase and lowercase characters alternate, from an uppercase
one to another. -/
def alternatingRanges : List (Nat × Nat) :=
  [(256, 310), (313, 327), (330, 374), (461, 475), (478, 494), (506, 562), (584, 590), (984, 1006),
   (1120, 1152), (1162, 1214), (1219, 1229), (1232, 1326), (7680, 7828), (7838, 7934), (8025, 8031),
   (8484, 8488), (11367, 11371), (11394, 11490), (42560, 42604), (42624, 42650), (42786, 42798),
   (42802, 42862), (42880, 42886), (42902, 42920), (42934, 42946), (42958, 42972)]

def isUppercase (character : Char) : Bool :=
  let code := character.toNat
  uppercaseRuns.covers code || alternatingRanges.any fun (first, last) =>
    first ≤ code && code ≤ last && (code - first) % 2 == 0

end Unclosed.Text
