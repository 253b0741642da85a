import Unclosed.Diagnostic.Basic

/-!
The diagnostics of this tool.  Leaks in the analyzed program are warnings;
failures to load it are errors.
-/

namespace Unclosed

/-- How a call result was dropped without being bound. -/
inductive DropCause where
  | bare
  | defer
  | go
deriving DecidableEq, Repr

namespace DropCause

def code : DropCause → String
  | bare => "C1001"
  | defer => "C1002"
  | go => "C1003"

def message : DropCause → String
  | bare => "return value won't be closed because it wasn't assigned"
  | defer => "return value won't be closed because it's on defer statement"
  | go => "return value won't be closed because it's on go statement"

def label : DropCause → String
  | bare => "result of this call is discarded"
  | defer => "deferred call discards its result"
  | go => "goroutine call discards its result"

end DropCause

namespace Diagnostic

def dropped (region : Region) (cause : DropCause) : Diagnostic where
  severity := .warning
  code := some cause.code
  message := cause.message
  region := region
  labels := [⟨.primary, region, cause.label⟩]
  notes := []
  help := ["bind the result and close it"]

def blankMessage (typeName : String) : String := typeName ++ " should be closed"

def boundToBlank (region : Region) (typeName : String) : Diagnostic where
  severity := .warning
  code := some "C1004"
  message := blankMessage typeName
  region := region
  labels := [⟨.primary, region, "assigned to the blank identifier"⟩]
  notes := []
  help := ["give the value a name and close it before returning"]

def notClosedMessage (name typeName : String) : String :=
  name ++ " (" ++ typeName ++ ") was not closed"

def notClosed (region : Region) (name typeName : String) (fieldDecl : Option Region) :
    Diagnostic where
  severity := .warning
  code := some "C1005"
  message := notClosedMessage name typeName
  region := region
  labels := ⟨.primary, region, "value produced here"⟩ ::
    (fieldDecl.map fun decl => Label.mk .secondary decl "field declared here").toList
  notes := ["values are only proven closed by straight-line code and a single level of `if`"]
  help := []

def syntaxError (region : Region) (message : String) (construct : Option String) :
    Diagnostic where
  severity := .error
  code := some "E0001"
  message := message
  region := region
  labels := [⟨.primary, region, "unexpected input"⟩]
  notes := (construct.map fun label => "while parsing " ++ label).toList
  help := []

def unresolvedMessage (path : String) : String := "cannot resolve import \"" ++ path ++ "\""

def unresolvedImport (region : Region) (path : String) : Diagnostic where
  severity := .error
  code := some "E4001"
  message := unresolvedMessage path
  region := region
  labels := [⟨.primary, region, "imported here"⟩]
  notes := []
  help := ["packages are looked up relative to the analysis root"]

end Diagnostic

end Unclosed
