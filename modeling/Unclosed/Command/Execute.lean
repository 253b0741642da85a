import Unclosed.Analysis.Run
import Unclosed.Command.Arguments
import Unclosed.Command.Help
import Unclosed.Command.Listing
import Unclosed.Facts.File
import Unclosed.Load.Discover
import Unclosed.Settings.Decode

/-!
Commands from the words of the command line to the texts they print.
-/

namespace Unclosed

structure Outcome where
  /-- 0 if nothing was found, 1 if something was, and 2 if the command failed. -/
  code : Nat
  output : String
  errors : String
deriving DecidableEq, Repr

inductive CommandError where
  | settings (error : SettingsError)
  | missingRoot (root : String)
  | discovery (error : LoadError)
  /-- A failure whose diagnostic is shown with or without colors. -/
  | load (colors : Bool) (failure : LoadFailure)
  | facts (error : FactError)
  | unwritable (path : String)

namespace CommandError

def coded (code message : String) : String := "[" ++ code ++ "] " ++ message

def message : CommandError → String
  | settings error => coded error.code error.message
  | missingRoot root => "Source root not found: " ++ root
  | discovery error => coded error.code error.message
  | load _ failure => coded failure.error.code failure.error.message
  | facts error => error.message
  | unwritable path => "Failed to write facts to " ++ path ++ ": " ++ FactError.unreadable.message

def shown : CommandError → String
  | load colors failure =>
    match failure.error.diagnostic? with
    | some diagnostic => diagnostic.render colors failure.sources ++ "\n"
    | none => ""
  | _ => ""

def outcome (error : CommandError) : Outcome :=
  ⟨2, "", error.shown ++ "Error: " ++ error.message ++ "\n"⟩

end CommandError

def settingsFileName : String := "closecheck.toml"

variable {m : Type → Type} [Monad m]

def Settings.read (storage : Storage m) (path : String) : m (Except SettingsError Settings) := do
  match ← storage.readText? path with
  | some text => return Settings.parse (some path) text
  | none => return .error (.unreadable path)

namespace Target

def settings (storage : Storage m) (target : Target) : ExceptT CommandError m Settings := do
  let read (path : String) : ExceptT CommandError m Settings := do
    match ← Settings.read (m := m) storage path with
    | .ok settings => return settings
    | .error error => throw (.settings error)
  match target.config with
  | some path => read path
  | none =>
    let path := joinPath target.root settingsFileName
    if (← storage.kind? path) = some .file then read path else return {}

def program (storage : Storage m) (settings : Settings) (target : Target) :
    ExceptT CommandError m Program := do
  if (← storage.kind? target.root) ≠ some .directory then throw (.missingRoot target.root)
  match ← (SourceTree.discover (m := m) storage settings.load target.root).run with
  | .error error => throw (.discovery error)
  | .ok tree =>
    match loadProgram settings tree target.packages with
    | .ok program => return program
    | .error failure => throw (.load settings.output.color failure)

end Target

def FactStore.earlier (storage : Storage m) : Option String → m FactStore
  | none => return empty
  | some path => return withFallbackFile (← storage.read? path)

/-- Settings from the command line come before those from a file. -/
def RunOptions.override (options : RunOptions) (settings : Settings) : Settings :=
  { settings with
    analysis := { settings.analysis with
      maxSummaryPasses := options.passes.getD settings.analysis.maxSummaryPasses
      trace := settings.analysis.trace || options.trace }
    output := {
      format := options.format.getD settings.output.format
      color := settings.output.color && !options.noColor } }

namespace Request

def liftFacts {α : Type} : Except FactError α → ExceptT CommandError m α
  | .ok value => pure value
  | .error error => throw (.facts error)

def runPackages (storage : Storage m) (target : Target) (factsIn : Option String)
    (options : RunOptions) : ExceptT CommandError m Outcome := do
  let settings := options.override (← target.settings storage)
  if let .error error := settings.validate then throw (.settings error)
  let program ← target.program storage settings
  let store ← FactStore.earlier (m := m) storage factsIn
  let (store, findings) := program.analyze settings.analysis store
  let findings ← liftFacts findings
  if let some path := options.factsOut then
    if !(← storage.write path store.save) then throw (.unwritable path)
  return ⟨if findings.isEmpty then 0 else 1,
    Listing.write settings.output program.sources findings, ""⟩

def factLine (fact : FuncKey × Bool) : String :=
  fact.1.text ++ ": " ++ (if fact.2 then "disposer" else "not a disposer") ++ "\n"

def showFacts (storage : Storage m) (target : Target) (factsIn : Option String) :
    ExceptT CommandError m Outcome := do
  let settings ← target.settings storage
  let program ← target.program storage settings
  let store ← FactStore.earlier (m := m) storage factsIn
  let reports ← liftFacts (program.summarize settings.analysis store).2
  let requested := program.requestedPackages.map (·.path)
  let shown := reports.filter fun (path, _) => requested.contains path
  return ⟨0, String.join (shown.flatMap fun (_, report) => report.facts.map factLine), ""⟩

def execute (storage : Storage m) : Request → ExceptT CommandError m Outcome
  | run target factsIn options => runPackages storage target factsIn options
  | facts target factsIn => showFacts storage target factsIn
  | help topic => return ⟨0, topic.text, ""⟩
  | version => return ⟨0, programVersion ++ "\n", ""⟩

end Request

def runCommandLine (storage : Storage m) (words : List String) : m Outcome := do
  match Request.ofWords words with
  | .error error => return ⟨2, "", error.message⟩
  | .ok request =>
    match ← request.execute storage with
    | .ok outcome => return outcome
    | .error error => return error.outcome

end Unclosed
