import Unclosed.Analysis.Calls
import Unclosed.Analysis.Disposer
import Unclosed.Facts.Store

/-!
Summaries of the functions of a package: a function that takes values to close
is a disposer when it closes all of them.  The first pass visits every function
in declaration order; when a function turns out to be a disposer its callers are
visited again, in the same pass if they come later and in the next if not.
-/

namespace Unclosed

/-- A function with a body and at least one parameter to close. -/
structure Candidate where
  key : FuncKey
  symbol : SymbolId
  file : FileId
  body : Block
  /-- The parameters to close; an unnamed or blank one has no symbol. -/
  params : List (Option SymbolId)
  callees : List SymbolId

structure SummaryReport where
  /-- The facts written, in declaration order. -/
  facts : List (FuncKey × Bool)
  /-- The functions that had a written fact before. -/
  skipped : Nat
  passes : Nat

/-- A package to summarize, with the facts known before. -/
structure Summarizer where
  program : Program
  package : Package
  settings : AnalysisSettings
  facts : FactStore

namespace Summarizer

def view (summarizer : Summarizer) (file : FileId) : FileView :=
  ⟨summarizer.program, summarizer.package, file⟩

/-! ### Candidates -/

def disposableParams (view : FileView) (params : List Field) (types : List TypeId) :
    List (Option SymbolId) :=
  let symbols := params.flatMap fun field =>
    if field.names.isEmpty then [none] else field.names.map view.objectOf
  ((symbols.zip types).filter fun (_, type) => (view.disposal type).needed).map Prod.fst

def calledSymbols (view : FileView) (body : Block) : List SymbolId :=
  body.callees.filterMap fun callee => (view.callee? callee).map Prod.fst

def candidate? (view : FileView) (func : FuncDecl) : Option Candidate := do
  let body ← func.body
  let id ← view.objectOf func.name
  let symbol ← view.symbol? id
  let key ← symbol.key
  let type ← view.program.types.func? symbol.type
  let params := disposableParams view func.signature.params type.params
  if params.isEmpty then none else some ⟨key, id, view.file, body, params, calledSymbols view body⟩

def allCandidates (summarizer : Summarizer) : List Candidate :=
  summarizer.package.files.flatMap fun file =>
    file.file.functions.filterMap (candidate? (summarizer.view file.id))

def candidates (summarizer : Summarizer) : List Candidate :=
  summarizer.allCandidates.filter fun candidate => !summarizer.facts.contains candidate.key

/-! ### One function -/

abbrev Verdicts := List (SymbolId × Bool)

def isDisposer (verdicts : Verdicts) (symbol : SymbolId) : Bool :=
  (verdicts.lookup symbol).getD false

/-- Whether a function is known to close what it is given: by this run's verdict,
else by the facts known before. -/
def isKnown (summarizer : Summarizer) (verdicts : Verdicts) (symbol : SymbolId) : Bool :=
  match verdicts.lookup symbol with
  | some verdict => verdict
  | none =>
    match (summarizer.program.symbols.get? symbol).bind Symbol.key with
    | some key => summarizer.facts.isDisposer key
    | none => false

def closesParams (summarizer : Summarizer) (known : SymbolId → Bool) (candidate : Candidate) :
    Bool :=
  candidate.params.all fun
    | some param =>
      DisposerSearch.inBlock
        ⟨summarizer.view candidate.file, summarizer.settings.disposalMethod, known, param⟩
        candidate.body
    | none => false

def calls (caller callee : Candidate) : Bool :=
  caller.symbol != callee.symbol && caller.callees.contains callee.symbol

/-! ### Passes -/

structure PassState where
  verdicts : Verdicts
  /-- The places still to visit in this pass. -/
  queue : List Nat
  next : List Nat

/-- The places of the callers of a candidate that are no disposers. -/
def openCallers (all : List Candidate) (verdicts : Verdicts) (candidate : Candidate) : List Nat :=
  (all.zipIdx.filter fun (caller, _) =>
    calls caller candidate && !isDisposer verdicts caller.symbol).map Prod.snd

def visit (summarizer : Summarizer) (all : List Candidate) (state : PassState)
    (entry : Candidate × Nat) : PassState :=
  let (candidate, index) := entry
  if !state.queue.contains index then state
  else
    let was := isDisposer state.verdicts candidate.symbol
    let is := was || summarizer.closesParams (summarizer.isKnown state.verdicts) candidate
    let verdicts := (candidate.symbol, is) :: state.verdicts
    if is && !was then
      let callers := openCallers all verdicts candidate
      ⟨verdicts, callers.filter (index < ·) ++ state.queue,
       callers.filter (· < index) ++ state.next⟩
    else { state with verdicts }

def sweep (summarizer : Summarizer) (all : List Candidate) (verdicts : Verdicts)
    (queue : List Nat) : PassState :=
  all.zipIdx.foldl (summarizer.visit all) ⟨verdicts, queue, []⟩

/-- Sweep until nothing is queued or the bound is reached; the answer counts the
passes. -/
def passes (summarizer : Summarizer) (all : List Candidate) :
    Nat → Verdicts → List Nat → Nat × Verdicts
  | 0, verdicts, _ => (0, verdicts)
  | bound + 1, verdicts, queue =>
    if queue.isEmpty then (0, verdicts)
    else
      let state := summarizer.sweep all verdicts queue
      let (count, final) := passes summarizer all bound state.verdicts state.next
      (count + 1, final)

/-! ### Whole packages -/

def verdicts (summarizer : Summarizer) : List (FuncKey × Bool) × Nat :=
  let all := summarizer.candidates
  let (count, final) := summarizer.passes all summarizer.settings.maxSummaryPasses []
    (List.range all.length)
  (all.map fun candidate => (candidate.key, isDisposer final candidate.symbol), count)

/-- Write facts in order.  Facts before a conflict stay written. -/
def writeAll (store : FactStore) : List (FuncKey × Bool) → FactStore × Except FactError Unit
  | [] => (store, .ok ())
  | (key, fact) :: later =>
    match store.write key fact with
    | .ok store => writeAll store later
    | .error error => (store, .error error)

def run (summarizer : Summarizer) : FactStore × Except FactError SummaryReport :=
  let (facts, passes) := summarizer.verdicts
  let skipped := summarizer.allCandidates.length - summarizer.candidates.length
  let (store, outcome) := writeAll summarizer.facts facts
  (store, outcome.map fun _ => ⟨facts, skipped, passes⟩)

end Summarizer

end Unclosed
