import Unclosed.Source.Map

/-!
Diagnostics: messages about a region of a source file, with labels, notes and
help.
-/

namespace Unclosed

inductive Severity where
  | error | warning | info | hint
deriving DecidableEq, Repr

def Severity.text : Severity → String
  | error => "error"
  | warning => "warning"
  | info => "info"
  | hint => "hint"

/-- The first primary label is shown under the source line; secondary labels
point at related places. -/
inductive LabelStyle where
  | primary | secondary
deriving DecidableEq, Repr

structure Label where
  style : LabelStyle
  region : Region
  message : String

structure Diagnostic where
  severity : Severity
  code : Option String
  message : String
  region : Region
  labels : List Label
  notes : List String
  help : List String

namespace Diagnostic

/-- Order by file, then by offset; equals keep their order. -/
def sort (diagnostics : List Diagnostic) : List Diagnostic :=
  diagnostics.mergeSort fun first second =>
    first.region.file.index < second.region.file.index
      || (first.region.file.index == second.region.file.index
        && first.region.start.offset ≤ second.region.start.offset)

def withSeverity (severity : Severity) (diagnostics : List Diagnostic) : List Diagnostic :=
  diagnostics.filter (·.severity == severity)

end Diagnostic

end Unclosed
