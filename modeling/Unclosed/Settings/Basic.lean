/-!
Settings of a run.  Every setting has a default.
-/

namespace Unclosed

structure AnalysisSettings where
  /-- The qualified name of the interface of values that must be closed. -/
  disposableInterface : String := "io.Closer"
  /-- The method that closes a value. -/
  disposalMethod : String := "Close"
  /-- Functions whose results need no closing. -/
  nopWrappers : List String := ["io.NopCloser", "io/ioutil.NopCloser"]
  /-- How often the functions of a package are summarized at most. -/
  maxSummaryPasses : Nat := 2
  trace : Bool := false

structure LoadSettings where
  /-- Names of directories that hold no packages. -/
  exclude : List String := ["vendor", "testdata"]

inductive OutputFormat where
  | text
  | json
deriving DecidableEq, Repr

structure OutputSettings where
  format : OutputFormat := .text
  color : Bool := true

structure Settings where
  analysis : AnalysisSettings := {}
  load : LoadSettings := {}
  output : OutputSettings := {}

def splitLastDot (text : String) : Option (String × String) :=
  let reversed := text.toList.reverse
  match reversed.dropWhile (· != '.') with
  | [] => none
  | _ :: before =>
    some (String.ofList before.reverse, String.ofList (reversed.takeWhile (· != '.')).reverse)

def qualifiedParts? (text : String) : Option (String × String) :=
  match splitLastDot text with
  | some (package, name) => if package.isEmpty || name.isEmpty then none else some (package, name)
  | none => none

def AnalysisSettings.interfaceParts? (settings : AnalysisSettings) : Option (String × String) :=
  qualifiedParts? settings.disposableInterface

inductive SettingsError where
  | unreadable (path : String)
  | malformed (path : Option String)
  /-- The analysis cannot work with a value. -/
  | invalid (reason : String)
deriving DecidableEq, Repr

namespace SettingsError

def code : SettingsError → String
  | _ => "E1001"

def message : SettingsError → String
  | unreadable path => "failed to read " ++ path
  | malformed (some path) => "failed to parse " ++ path
  | malformed none => "failed to parse configuration"
  | invalid reason => "invalid configuration: " ++ reason

end SettingsError

def Settings.validate (settings : Settings) : Except SettingsError Unit :=
  if settings.analysis.maxSummaryPasses = 0 then
    .error (.invalid "max-summary-passes must be at least 1")
  else if settings.analysis.interfaceParts?.isNone then
    .error (.invalid ("disposable-interface must be a qualified name like \"io.Closer\", got \""
      ++ settings.analysis.disposableInterface ++ "\""))
  else if settings.analysis.disposalMethod.isEmpty then
    .error (.invalid "disposal-method must not be empty")
  else .ok ()

end Unclosed
