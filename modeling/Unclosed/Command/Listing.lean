import Unclosed.Analysis.Finding
import Unclosed.Diagnostic.Render
import Unclosed.Settings.Basic
import Unclosed.Text.Json

/-!
Findings as the output of a run.
-/

namespace Unclosed.Listing

/-! ### JSON -/

def jsonFields (finding : Finding) : List (String × String) :=
  [("code", Json.quote finding.code),
    ("message", Json.quote finding.message),
    ("file", Json.quote finding.file),
    ("line", toString finding.region.start.line),
    ("column", toString finding.region.start.column),
    ("package", Json.quote finding.package)]

def jsonFinding (finding : Finding) : String :=
  let fields := (jsonFields finding).map fun (name, value) =>
    "    " ++ Json.quote name ++ ": " ++ value
  "  \x7b\n" ++ ",\n".intercalate fields ++ "\n  \x7d"

def json (findings : List Finding) : String :=
  if findings.isEmpty then "[]\n"
  else "[\n" ++ ",\n".intercalate (findings.map jsonFinding) ++ "\n]\n"

/-! ### Text -/

def countText : Nat → String
  | 0 => "No leaks found"
  | 1 => "1 finding"
  | count => toString count ++ " findings"

def text (colors : Bool) (sources : SourceMap) (findings : List Finding) : String :=
  let shown :=
    if findings.isEmpty then ""
    else Diagnostic.renderAll colors sources (findings.map Finding.diagnostic) ++ "\n"
  shown ++ countText findings.length ++ "\n"

def write (settings : OutputSettings) (sources : SourceMap) (findings : List Finding) : String :=
  match settings.format with
  | .text => text settings.color sources findings
  | .json => json findings

end Unclosed.Listing
