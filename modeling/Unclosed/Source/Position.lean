/-!
Positions in registered source files: lines and columns count bytes from one.
-/

namespace Unclosed

/-- A source file of one run, numbered in the order of registration. -/
structure FileId where
  index : Nat
deriving DecidableEq, Repr

def FileId.text (file : FileId) : String := "FileId(" ++ toString file.index ++ ")"

structure Position where
  line : Nat
  column : Nat
  offset : Nat
deriving DecidableEq, Repr

/-- A range of one source file with its end points resolved. -/
structure Region where
  start : Position
  stop : Position
  file : FileId
deriving DecidableEq, Repr

/-- Lines, columns and offsets are machine words: behind the last one comes zero. -/
def nextWord (word : Nat) : Nat := (word + 1) % UInt64.size

def Region.point (position : Position) (file : FileId) : Region :=
  ⟨position, ⟨position.line, nextWord position.column, nextWord position.offset⟩, file⟩

end Unclosed
