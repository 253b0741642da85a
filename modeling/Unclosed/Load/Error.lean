import Unclosed.Diagnostic.Report
import Unclosed.Import.Graph
import Unclosed.Settings.Basic

/-!
Why a program could not be loaded.
-/

namespace Unclosed

inductive LoadError where
  /-- A file or directory could not be read. -/
  | unreadable (path : String)
  | malformed (diagnostic : Diagnostic)
  | unresolvedImport (path : String) (diagnostic : Diagnostic)
  | importCycle (cycle : ImportCycle)
  /-- The disposable interface is no known interface. -/
  | missingInterface (name : String)
  | noMatch (pattern : String)
  | settings (error : SettingsError)

namespace LoadError

def code : LoadError → String
  | malformed _ => "E0001"
  | unreadable _ | unresolvedImport _ _ | noMatch _ => "E4001"
  | importCycle _ => "E4002"
  | missingInterface _ => "E4003"
  | settings error => error.code

def diagnostic? : LoadError → Option Diagnostic
  | malformed diagnostic => some diagnostic
  | unresolvedImport _ diagnostic => some diagnostic
  | _ => none

def message : LoadError → String
  | unreadable path => "failed to read " ++ path
  | malformed diagnostic => diagnostic.message
  | unresolvedImport path _ => Diagnostic.unresolvedMessage path
  | importCycle cycle => cycle.message
  | missingInterface name => "disposable interface " ++ name ++ " is not an interface type"
  | noMatch pattern => "pattern \"" ++ pattern ++ "\" matched no packages"
  | settings error => error.message

end LoadError

end Unclosed
