import Unclosed.Source.Position

/-!
Source files and the correspondence between byte offsets and lines.
-/

namespace Unclosed

structure SourceFile where
  name : String
  content : String

namespace SourceFile

def lineStartsFrom : Nat → List Char → List Nat
  | _, [] => []
  | offset, next :: rest =>
    let after := offset + next.utf8Size
    if next = '\n' then after :: lineStartsFrom after rest else lineStartsFrom after rest

def lineStarts (file : SourceFile) : List Nat := 0 :: lineStartsFrom 0 file.content.toList

/-! ### Lines -/

def dropLineEnds (line : List Char) : List Char :=
  (line.reverse.dropWhile fun next => next == '\n' || next == '\r').reverse

/-- A line without its terminator; lines count from one. -/
def line? (file : SourceFile) (number : Nat) : Option String :=
  let starts := file.lineStarts.toArray
  if number = 0 ∨ starts.size < number then none
  else
    let start := starts.getD (number - 1) 0
    let stop := if number < starts.size then starts.getD number 0 else file.content.utf8ByteSize
    let slice := String.Pos.Raw.extract file.content ⟨start⟩ ⟨stop⟩
    some (String.ofList (dropLineEnds slice.toList))

/-! ### Positions -/

/-- The last of the `size` places from `base` on whose line starts no later than
the offset, given that the first of them does or that there is only one. -/
def narrow (starts : Array Nat) (offset base size : Nat) : Nat :=
  if size ≤ 1 then base
  else
    let half := size / 2
    let middle := base + half
    narrow starts offset (if offset < starts.getD middle 0 then base else middle) (size - half)
termination_by size

/-- The place of a line start, or else the place where it is missing. -/
def search (starts : Array Nat) (offset : Nat) : Except Nat Nat :=
  if starts.isEmpty then .error 0
  else
    let place := narrow starts offset 0 starts.size
    let start := starts.getD place 0
    if start = offset then .ok place
    else .error (if start < offset then place + 1 else place)

/-- The line that an offset is on and its column there.  Offsets past the end
belong to the last line. -/
def lineColumn (file : SourceFile) (offset : Nat) : Nat × Nat :=
  let starts := file.lineStarts.toArray
  let place :=
    match search starts offset with
    | .ok place => place
    | .error place => place - 1
  (place + 1, nextWord (offset - starts.getD place 0))

def position (file : SourceFile) (offset : Nat) : Position :=
  let (line, column) := file.lineColumn offset
  ⟨line, column, offset⟩

end SourceFile

end Unclosed
