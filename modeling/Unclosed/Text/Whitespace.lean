import Unclosed.Text.CodeRuns

/-!
The characters with the Unicode property `White_Space`.
-/

namespace Unclosed.Text

def whitespaceRuns : CodeRuns :=
  [9, 5, 18, 1, 100, 1, 26, 1, 5599, 1, 2431, 11, 29, 2, 5, 1, 47, 1, 4000, 1]

def isWhitespace (character : Char) : Bool := whitespaceRuns.covers character.toNat

end Unclosed.Text
