import Unclosed.Diagnostic.Report

/-!
Findings: places of the analyzed program where a value is not closed.
-/

namespace Unclosed

inductive FindingKind where
  /-- A call result that must be closed is not bound. -/
  | dropped (cause : DropCause)
  /-- A value that must be closed is bound to the blank identifier. -/
  | blank (typeName : String)
  /-- A bound value is not closed, returned or handed on.  For a field the
  declaration is known. -/
  | notClosed (name typeName : String) (fieldDecl : Option Region)
deriving DecidableEq, Repr

namespace FindingKind

def code : FindingKind → String
  | dropped cause => cause.code
  | blank _ => "C1004"
  | notClosed _ _ _ => "C1005"

def message : FindingKind → String
  | dropped cause => cause.message
  | blank typeName => Diagnostic.blankMessage typeName
  | notClosed name typeName _ => Diagnostic.notClosedMessage name typeName

end FindingKind

structure Finding where
  kind : FindingKind
  region : Region
  file : String
  package : String
deriving DecidableEq, Repr

namespace Finding

def code (finding : Finding) : String := finding.kind.code

def message (finding : Finding) : String := finding.kind.message

def diagnostic (finding : Finding) : Diagnostic :=
  match finding.kind with
  | .dropped cause => .dropped finding.region cause
  | .blank typeName => .boundToBlank finding.region typeName
  | .notClosed name typeName fieldDecl => .notClosed finding.region name typeName fieldDecl

/-- Findings are listed by file, then position, then code. -/
def precedes (first second : Finding) : Bool :=
  if first.file != second.file then first.file < second.file
  else if first.region.start.offset != second.region.start.offset then
    first.region.start.offset < second.region.start.offset
  else first.code ≤ second.code

def sort (findings : List Finding) : List Finding := findings.mergeSort precedes

end Finding

end Unclosed
