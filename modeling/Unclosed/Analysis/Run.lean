import Unclosed.Analysis.Scan
import Unclosed.Analysis.Summary

/-!
Analysis of a loaded program.  Packages are summarized level by level, so that
the facts of imported packages are written before their importers are looked at.
-/

namespace Unclosed.Program

/-! ### Single packages -/

def summarizePackage (program : Program) (settings : AnalysisSettings) (store : FactStore)
    (package : Package) : FactStore × Except FactError SummaryReport :=
  Summarizer.run ⟨program, package, settings, store⟩

def scan (program : Program) (settings : AnalysisSettings) (store : FactStore)
    (package : Package) (file : FileId) : Scan :=
  ⟨⟨program, package, file⟩, settings, store.isDisposer⟩

/-- For each function of a package, in source order, whether all its values were
resolved, and its findings. -/
def scanFunctions (program : Program) (settings : AnalysisSettings) (store : FactStore)
    (package : Package) : List (FuncDecl × Bool × List Finding) :=
  package.files.flatMap fun file =>
    file.file.functions.map fun func =>
      (func, (program.scan settings store package file.id).function func)

def checkPackage (program : Program) (settings : AnalysisSettings) (store : FactStore)
    (package : Package) : List Finding :=
  (program.scanFunctions settings store package).flatMap fun (_, _, findings) => findings

/-- Visit packages in order, handing the store on.  Every package is visited;
the first failure is the answer. -/
def visitPackages {α : Type} (step : FactStore → Package → FactStore × Except FactError α) :
    List Package → FactStore → FactStore × Except FactError (List α)
  | [], store => (store, .ok [])
  | package :: later, store =>
    let (store, first) := step store package
    let (store, others) := visitPackages step later store
    (store, do return (← first) :: (← others))

/-- Visit level after level up to the first level with a failure. -/
def visitLevels {α : Type} (program : Program)
    (step : FactStore → Package → FactStore × Except FactError α) :
    List (List Nat) → FactStore → FactStore × Except FactError (List α)
  | [], store => (store, .ok [])
  | level :: later, store =>
    let packages := (program.levelPackages level).filter fun package => !package.isStandard
    match visitPackages step packages store with
    | (store, .error error) => (store, .error error)
    | (store, .ok first) =>
      let (store, others) := visitLevels program step later store
      (store, others.map (first ++ ·))

def summarize (program : Program) (settings : AnalysisSettings) (store : FactStore) :
    FactStore × Except FactError (List (String × SummaryReport)) :=
  program.visitLevels (fun store package =>
    let (store, outcome) := program.summarizePackage settings store package
    (store, outcome.map fun report => (package.path, report)))
    program.levels store

def check (program : Program) (settings : AnalysisSettings) (store : FactStore) : List Finding :=
  Finding.sort ((program.requestedPackages.filter fun package => !package.isStandard).flatMap
    (program.checkPackage settings store))

def analyze (program : Program) (settings : AnalysisSettings) (store : FactStore) :
    FactStore × Except FactError (List Finding) :=
  let (store, outcome) := program.visitLevels (fun store package =>
    let (store, outcome) := program.summarizePackage settings store package
    (store, outcome.map fun _ =>
      if package.requested then program.checkPackage settings store package else []))
    program.levels store
  (store, outcome.map fun findings => Finding.sort findings.flatten)

end Unclosed.Program
