import Unclosed.Text.Uppercase

/-!
Byte ranges of a source text and the identifiers read from it.
-/

namespace Unclosed

/-- A half-open byte range of one source text. -/
structure Span where
  start : Nat
  stop : Nat
deriving DecidableEq, Repr, Inhabited

def Span.merge (first second : Span) : Span :=
  ⟨min first.start second.start, max first.stop second.stop⟩

/-- A name is exported when its first character is a capital letter. -/
def isExportedName (name : String) : Bool :=
  match name.toList with
  | [] => false
  | first :: _ => Text.isUppercase first

structure Ident where
  name : String
  span : Span
deriving DecidableEq, Repr, Inhabited

/-- The blank identifier binds nothing. -/
def Ident.isBlank (ident : Ident) : Bool := ident.name == "_"

def Ident.isExported (ident : Ident) : Bool := isExportedName ident.name

end Unclosed
