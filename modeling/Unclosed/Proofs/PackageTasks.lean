import Unclosed.Proofs.AnalysisOrder
import Unclosed.Proofs.StoreTasks

/-!
The analysis of a package as a task on a shared fact store.  It asks for written
facts when it lists the functions to summarize, for known disposers whenever a
body hands a value on, and writes one fact after another in the end.  Left alone
it does what the package's turn does.
-/

namespace Unclosed

variable {callee : Expr} {candidate : Candidate} {touches : FuncKey → Prop}
  {store final : FactStore} {report : SummaryReport}

/-! ### Questions -/

namespace Task

def isWritten (key : FuncKey) : Task Bool := .contains key .done

def isKnown (key : FuncKey) : Task Bool := .isDisposer key .done

def tryWrite (key : FuncKey) (fact : Bool) : Task (Except FactError Unit) := .write key fact .done

def or (first second : Task Bool) : Task Bool := do
  if ← first then return true else second

/-- Left alone, a task touches only the given keys, adds nothing and ends with
the given value. -/
def Reads {α : Type} (touches : FuncKey → Prop) (store : FactStore) (task : Task α)
    (value : α) : Prop :=
  Plays touches store task [] value

namespace Reads

variable {α β : Type} {touches : FuncKey → Prop} {store : FactStore}

theorem done (value : α) : Reads touches store (pure value) value := Plays.done store value

theorem bind {task : Task α} {next : α → Task β} {value : α} {result : β}
    (first : Reads touches store task value) (second : Reads touches store (next value) result) :
    Reads touches store (task >>= next) result :=
  Plays.bind first second

theorem goOn {task : Task α} {next : α → Task β} {value : α} {facts : List (FuncKey × Bool)}
    {result : β} (first : Reads touches store task value)
    (second : Plays touches store (next value) facts result) :
    Plays touches store (task >>= next) facts result :=
  Plays.bind first second

theorem or {first second : Task Bool} {value other : Bool} (left : Reads touches store first value)
    (right : Reads touches store second other) :
    Reads touches store (first.or second) (value || other) := by
  refine left.bind ?_
  cases value with
  | true => exact done true
  | false => exact right

theorem isWritten {key : FuncKey} (touch : touches key) :
    Reads touches store (isWritten key) (store.contains key) :=
  .contains touch (.done store _)

theorem isKnown {key : FuncKey} (touch : touches key) :
    Reads touches store (isKnown key) (store.isDisposer key) :=
  .isDisposer touch (.done store _)

end Reads

end Task

/-! ### The search for the closing of a parameter -/

namespace DisposerSearch

section

variable (search : DisposerSearch) (ask : SymbolId → Task Bool)

def handsOverTask (callee : Expr) (arguments : List Expr) : Task Bool := do
  match search.view.callee? callee with
  | none => return false
  | some (id, _) =>
    let known ← ask id
    return known && ((search.view.receiver? callee).toList ++ arguments).any search.isRooted

mutual

def inExprTask : Expr → Task Bool
  | .call _ callee arguments _ =>
    (((Task.or (pure (search.closesDirectly callee)) (handsOverTask search ask callee arguments)).or
      (inLiteralTask callee)).or (inExprTask callee)).or (inExprsTask arguments)
  | .paren _ operand | .unary _ _ operand => inExprTask operand
  | .binary _ _ left right => (inExprTask left).or (inExprTask right)
  | _ => pure false

def inExprsTask : List Expr → Task Bool
  | [] => pure false
  | expr :: later => (inExprTask expr).or (inExprsTask later)

def inLiteralTask : Expr → Task Bool
  | .paren _ inner => inLiteralTask inner
  | .function _ _ body => inBlockTask body
  | _ => pure false

def inBlockTask : Block → Task Bool
  | .mk stmts _ => inStmtsTask stmts

def inStmtsTask : List Stmt → Task Bool
  | [] => pure false
  | stmt :: later => (inStmtTask stmt).or (inStmtsTask later)

def inStmtTask : Stmt → Task Bool
  | .conditional _ init _ body _ => (inOptionalStmtTask init).or (inBlockTask body)
  | .returns _ results => inExprsTask results
  | .defer _ expr | .expr _ expr => inExprTask expr
  | .assign _ _ _ values => inExprsTask values
  | .decl _ (.var specs) => inSpecsTask specs
  | _ => pure false

def inOptionalStmtTask : Option Stmt → Task Bool
  | none => pure false
  | some stmt => inStmtTask stmt

def inSpecsTask : List ValueSpec → Task Bool
  | [] => pure false
  | .mk _ _ values _ _ :: later => (inExprsTask values).or (inSpecsTask later)

end

end

def Asks (search : DisposerSearch) (ask : SymbolId → Task Bool) (known : SymbolId → Bool)
    (touches : FuncKey → Prop) (store : FactStore) (callees : List Expr) : Prop :=
  ∀ callee ∈ callees, ∀ target ∈ search.view.callee? callee,
    Task.Reads touches store (ask target.1) (known target.1)

section Asks

variable {search : DisposerSearch} {ask : SymbolId → Task Bool} {known : SymbolId → Bool}
  {touches : FuncKey → Prop} {store : FactStore}

@[simp] theorem asks_append (before after : List Expr) :
    Asks search ask known touches store (before ++ after) ↔
      Asks search ask known touches store before ∧ Asks search ask known touches store after :=
  List.forall_mem_append

@[simp] theorem asks_cons (callee : Expr) (later : List Expr) :
    Asks search ask known touches store (callee :: later) ↔
      (∀ target ∈ search.view.callee? callee,
        Task.Reads touches store (ask target.1) (known target.1)) ∧
        Asks search ask known touches store later :=
  List.forall_mem_cons

theorem handsOverTask_reads (arguments : List Expr) (asks : ∀ target ∈ search.view.callee? callee,
      Task.Reads touches store (ask target.1) (known target.1)) :
    Task.Reads touches store (search.handsOverTask ask callee arguments)
      (handsOver { search with known } callee arguments) := by
  unfold handsOverTask handsOver isKnownDisposer
  dsimp only
  cases found : search.view.callee? callee with
  | none => exact .done false
  | some target => exact (asks target found).bind (.done _)

mutual

theorem inExprTask_reads (expr : Expr)
    (asks : Asks search ask known touches store expr.callees) :
    Task.Reads touches store (inExprTask search ask expr) (inExpr { search with known } expr) := by
  cases expr with
  | call span callee arguments spread =>
    simp only [Expr.callees, asks_cons, asks_append] at asks
    obtain ⟨here, inCallee, inArguments⟩ := asks
    exact ((((Task.Reads.done _).or (handsOverTask_reads arguments here)).or
      (inLiteralTask_reads callee inCallee)).or (inExprTask_reads callee inCallee)).or
        (inExprsTask_reads arguments inArguments)
  | paren span operand | unary span op operand => exact inExprTask_reads operand asks
  | binary span op left right =>
    simp only [Expr.callees, asks_append] at asks
    exact (inExprTask_reads left asks.1).or (inExprTask_reads right asks.2)
  | _ => exact .done false

theorem inExprsTask_reads (exprs : List Expr)
    (asks : Asks search ask known touches store (calleesOfExprs exprs)) :
    Task.Reads touches store (inExprsTask search ask exprs)
      (inExprs { search with known } exprs) := by
  cases exprs with
  | nil => exact .done false
  | cons expr later =>
    simp only [calleesOfExprs, asks_append] at asks
    exact (inExprTask_reads expr asks.1).or (inExprsTask_reads later asks.2)

theorem inLiteralTask_reads (expr : Expr)
    (asks : Asks search ask known touches store expr.callees) :
    Task.Reads touches store (inLiteralTask search ask expr)
      (inLiteral { search with known } expr) := by
  cases expr with
  | paren span inner => exact inLiteralTask_reads inner asks
  | function span signature body => exact inBlockTask_reads body asks
  | _ => exact .done false

theorem inBlockTask_reads (block : Block)
    (asks : Asks search ask known touches store block.callees) :
    Task.Reads touches store (inBlockTask search ask block)
      (inBlock { search with known } block) := by
  cases block with
  | mk stmts span => exact inStmtsTask_reads stmts asks

theorem inStmtsTask_reads (stmts : List Stmt)
    (asks : Asks search ask known touches store (calleesOfStmts stmts)) :
    Task.Reads touches store (inStmtsTask search ask stmts)
      (inStmts { search with known } stmts) := by
  cases stmts with
  | nil => exact .done false
  | cons stmt later =>
    simp only [calleesOfStmts, asks_append] at asks
    exact (inStmtTask_reads stmt asks.1).or (inStmtsTask_reads later asks.2)

theorem inStmtTask_reads (stmt : Stmt)
    (asks : Asks search ask known touches store stmt.callees) :
    Task.Reads touches store (inStmtTask search ask stmt) (inStmt { search with known } stmt) := by
  cases stmt with
  | conditional span init condition body alternative =>
    simp only [Stmt.callees, asks_append] at asks
    exact (inOptionalStmtTask_reads init asks.1.1.1).or (inBlockTask_reads body asks.1.2)
  | returns span results => exact inExprsTask_reads results asks
  | defer span expr | expr span expr => exact inExprTask_reads expr asks
  | assign span targets op values =>
    simp only [Stmt.callees, asks_append] at asks
    exact inExprsTask_reads values asks.2
  | decl span decl =>
    cases decl with
    | var specs => exact inSpecsTask_reads specs asks
    | _ => exact .done false
  | _ => exact .done false

theorem inOptionalStmtTask_reads (stmt : Option Stmt)
    (asks : Asks search ask known touches store (calleesOfOptionalStmt stmt)) :
    Task.Reads touches store (inOptionalStmtTask search ask stmt)
      (inOptionalStmt { search with known } stmt) := by
  cases stmt with
  | none => exact .done false
  | some stmt => exact inStmtTask_reads stmt asks

theorem inSpecsTask_reads (specs : List ValueSpec)
    (asks : Asks search ask known touches store (calleesOfSpecs specs)) :
    Task.Reads touches store (inSpecsTask search ask specs)
      (inSpecs { search with known } specs) := by
  cases specs with
  | nil => exact .done false
  | cons spec later =>
    cases spec with
    | mk names type values position span =>
      simp only [calleesOfSpecs, asks_append] at asks
      exact (inExprsTask_reads values asks.1).or (inSpecsTask_reads later asks.2)

end

end Asks

end DisposerSearch

/-! ### The scan of a body -/

namespace Scan

def handsOverTask (scan : Scan) (value : Tracked) (callee : Expr) (arguments : List Expr) :
    Task Bool := do
  match scan.view.calleeKey? callee with
  | none => return false
  | some key =>
    let known ← Task.isKnown key
    return known && ((scan.view.receiver? callee).toList ++ arguments).any (scan.mentions value)

section

variable (scan : Scan) (value : Tracked)

mutual

def disposesTask : Expr → Task Bool
  | .call _ callee arguments _ =>
    (((Task.or (pure (scan.closesDirectly value callee))
      (scan.handsOverTask value callee arguments)).or (literalResolvesTask callee)).or
        (disposesTask callee)).or (anyDisposesTask arguments)
  | .paren _ operand | .unary _ _ operand => disposesTask operand
  | .binary _ _ left right => (disposesTask left).or (disposesTask right)
  | _ => pure false

def anyDisposesTask : List Expr → Task Bool
  | [] => pure false
  | expr :: later => (disposesTask expr).or (anyDisposesTask later)

def literalResolvesTask : Expr → Task Bool
  | .paren _ inner => literalResolvesTask inner
  | .function _ _ body => blockResolvesTask false body
  | _ => pure false

def blockResolvesTask (nested : Bool) : Block → Task Bool
  | .mk stmts _ => anyResolvesTask nested stmts

def anyResolvesTask (nested : Bool) : List Stmt → Task Bool
  | [] => pure false
  | stmt :: later => (resolvesAtTask nested stmt).or (anyResolvesTask nested later)

def resolvesAtTask (nested : Bool) : Stmt → Task Bool
  | .returns _ results => Task.or (pure (scan.anyEscapes value results)) (anyDisposesTask results)
  | .defer _ expr | .go _ expr | .expr _ expr => disposesTask expr
  | .assign _ _ _ values => anyDisposesTask values
  | .decl _ (.var specs) => specsDisposeTask specs
  | .conditional _ init _ body _ =>
    if nested then pure false
    else (optionalResolvesTask init).or (blockResolvesTask true body)
  | _ => pure false

def optionalResolvesTask : Option Stmt → Task Bool
  | none => pure false
  | some stmt => resolvesAtTask true stmt

def specsDisposeTask : List ValueSpec → Task Bool
  | [] => pure false
  | .mk _ _ values _ _ :: later => (anyDisposesTask values).or (specsDisposeTask later)

end

end

def markAllTask (scan : Scan) (stmt : Stmt) : List Tracked → Task (List Tracked)
  | [] => pure []
  | value :: later => do
    let resolved ← Task.or (pure value.resolved) (scan.resolvesAtTask value false stmt)
    let others ← markAllTask scan stmt later
    return { value with resolved } :: others

def stmtsTask (scan : Scan) : List Stmt → List Tracked → Task (List Finding)
  | [], tracked => pure ((tracked.filter fun value => !value.resolved).map scan.leak)
  | stmt :: later, tracked =>
    match if tracked.isEmpty then scan.dropped? stmt else none with
    | some (expr, cause) => pure [scan.finding expr.span (.dropped cause)]
    | none => do
      let dropped := if tracked.isEmpty then [] else scan.droppedLater stmt
      let bound := scan.boundBy stmt
      let marked ← scan.markAllTask stmt tracked
      let findings ← stmtsTask scan later (marked ++ bound.tracked)
      return dropped ++ bound.findings ++ findings

def functionTask (scan : Scan) (func : FuncDecl) : Task (List Finding) :=
  match func.body with
  | none => pure []
  | some body => scan.stmtsTask body.stmts []

def Touched (scan : Scan) (touches : FuncKey → Prop) (callees : List Expr) : Prop :=
  ∀ callee ∈ callees, ∀ key ∈ scan.view.calleeKey? callee, touches key

section Touched

variable {scan : Scan} {touches : FuncKey → Prop} {store : FactStore} {value : Tracked}

@[simp] theorem touched_append (before after : List Expr) :
    scan.Touched touches (before ++ after) ↔
      scan.Touched touches before ∧ scan.Touched touches after :=
  List.forall_mem_append

@[simp] theorem touched_cons (callee : Expr) (later : List Expr) :
    scan.Touched touches (callee :: later) ↔
      (∀ key ∈ scan.view.calleeKey? callee, touches key) ∧ scan.Touched touches later :=
  List.forall_mem_cons

theorem handsOverTask_reads (arguments : List Expr)
    (touched : ∀ key ∈ scan.view.calleeKey? callee, touches key) :
    Task.Reads touches store (scan.handsOverTask value callee arguments)
      ((scan.knowing store.isDisposer).handsOver value callee arguments) := by
  unfold handsOverTask handsOver isKnownDisposer
  dsimp only [knowing]
  cases found : scan.view.calleeKey? callee with
  | none => exact .done false
  | some key => exact (Task.Reads.isKnown (touched key found)).bind (.done _)

theorem anyEscapes_knowing (scan : Scan) (known : FuncKey → Bool) (value : Tracked)
    (exprs : List Expr) :
    (scan.knowing known).anyEscapes value exprs = scan.anyEscapes value exprs := by
  refine Bool.eq_iff_iff.mpr ⟨?_, ?_⟩
  · exact anyEscapes_of_covers (covers_knowing (scan.knowing known) scan.isDisposer value
      value.resolved [] (by simp [Keeps])) exprs
  · exact anyEscapes_of_covers (covers_knowing scan known value value.resolved []
      (by simp [Keeps])) exprs

mutual

theorem disposesTask_reads (expr : Expr) (touched : scan.Touched touches expr.callees) :
    Task.Reads touches store (disposesTask scan value expr)
      ((scan.knowing store.isDisposer).disposes value expr) := by
  cases expr with
  | call span callee arguments spread =>
    simp only [Expr.callees, touched_cons, touched_append] at touched
    obtain ⟨here, inCallee, inArguments⟩ := touched
    exact ((((Task.Reads.done _).or (handsOverTask_reads arguments here)).or
      (literalResolvesTask_reads callee inCallee)).or (disposesTask_reads callee inCallee)).or
        (anyDisposesTask_reads arguments inArguments)
  | paren span operand | unary span op operand => exact disposesTask_reads operand touched
  | binary span op left right =>
    simp only [Expr.callees, touched_append] at touched
    exact (disposesTask_reads left touched.1).or (disposesTask_reads right touched.2)
  | _ => exact .done false

theorem anyDisposesTask_reads (exprs : List Expr)
    (touched : scan.Touched touches (calleesOfExprs exprs)) :
    Task.Reads touches store (anyDisposesTask scan value exprs)
      ((scan.knowing store.isDisposer).anyDisposes value exprs) := by
  cases exprs with
  | nil => exact .done false
  | cons expr later =>
    simp only [calleesOfExprs, touched_append] at touched
    exact (disposesTask_reads expr touched.1).or (anyDisposesTask_reads later touched.2)

theorem literalResolvesTask_reads (expr : Expr) (touched : scan.Touched touches expr.callees) :
    Task.Reads touches store (literalResolvesTask scan value expr)
      ((scan.knowing store.isDisposer).literalResolves value expr) := by
  cases expr with
  | paren span inner => exact literalResolvesTask_reads inner touched
  | function span signature body => exact blockResolvesTask_reads false body touched
  | _ => exact .done false

theorem blockResolvesTask_reads (nested : Bool) (block : Block)
    (touched : scan.Touched touches block.callees) :
    Task.Reads touches store (blockResolvesTask scan value nested block)
      ((scan.knowing store.isDisposer).blockResolves value nested block) := by
  cases block with
  | mk stmts span => exact anyResolvesTask_reads nested stmts touched

theorem anyResolvesTask_reads (nested : Bool) (stmts : List Stmt)
    (touched : scan.Touched touches (calleesOfStmts stmts)) :
    Task.Reads touches store (anyResolvesTask scan value nested stmts)
      ((scan.knowing store.isDisposer).anyResolves value nested stmts) := by
  cases stmts with
  | nil => exact .done false
  | cons stmt later =>
    simp only [calleesOfStmts, touched_append] at touched
    exact (resolvesAtTask_reads nested stmt touched.1).or
      (anyResolvesTask_reads nested later touched.2)

theorem resolvesAtTask_reads (nested : Bool) (stmt : Stmt)
    (touched : scan.Touched touches stmt.callees) :
    Task.Reads touches store (resolvesAtTask scan value nested stmt)
      ((scan.knowing store.isDisposer).resolvesAt value nested stmt) := by
  cases stmt with
  | returns span results =>
    rw [resolvesAt, anyEscapes_knowing]
    exact (Task.Reads.done _).or (anyDisposesTask_reads results touched)
  | defer span expr | go span expr | expr span expr => exact disposesTask_reads expr touched
  | assign span targets op values =>
    simp only [Stmt.callees, touched_append] at touched
    exact anyDisposesTask_reads values touched.2
  | decl span decl =>
    cases decl with
    | var specs => exact specsDisposeTask_reads specs touched
    | _ => exact .done false
  | conditional span init condition body alternative =>
    simp only [Stmt.callees, touched_append] at touched
    cases nested with
    | true => exact .done false
    | false =>
      exact (optionalResolvesTask_reads init touched.1.1.1).or
        (blockResolvesTask_reads true body touched.1.2)
  | _ => exact .done false

theorem optionalResolvesTask_reads (stmt : Option Stmt)
    (touched : scan.Touched touches (calleesOfOptionalStmt stmt)) :
    Task.Reads touches store (optionalResolvesTask scan value stmt)
      ((scan.knowing store.isDisposer).optionalResolves value stmt) := by
  cases stmt with
  | none => exact .done false
  | some stmt => exact resolvesAtTask_reads true stmt touched

theorem specsDisposeTask_reads (specs : List ValueSpec)
    (touched : scan.Touched touches (calleesOfSpecs specs)) :
    Task.Reads touches store (specsDisposeTask scan value specs)
      ((scan.knowing store.isDisposer).specsDispose value specs) := by
  cases specs with
  | nil => exact .done false
  | cons spec later =>
    cases spec with
    | mk names type values position span =>
      simp only [calleesOfSpecs, touched_append] at touched
      exact (anyDisposesTask_reads values touched.1).or (specsDisposeTask_reads later touched.2)

end

theorem markAllTask_reads (stmt : Stmt) (touched : scan.Touched touches stmt.callees)
    (tracked : List Tracked) :
    Task.Reads touches store (scan.markAllTask stmt tracked)
      (tracked.map ((scan.knowing store.isDisposer).markResolved stmt)) := by
  induction tracked with
  | nil => exact .done []
  | cons value later ih =>
    exact ((Task.Reads.done value.resolved).or (resolvesAtTask_reads false stmt touched)).bind
      (ih.bind (.done _))

theorem stmtsTask_reads (stmts : List Stmt) (touched : scan.Touched touches (calleesOfStmts stmts))
    (tracked : List Tracked) :
    Task.Reads touches store (scan.stmtsTask stmts tracked)
      ((scan.knowing store.isDisposer).stmts stmts tracked).2 := by
  induction stmts generalizing tracked with
  | nil => exact .done _
  | cons stmt later ih =>
    simp only [calleesOfStmts, touched_append] at touched
    have sameDropped : (scan.knowing store.isDisposer).dropped? stmt = scan.dropped? stmt := rfl
    have sameLater : (scan.knowing store.isDisposer).droppedLater stmt =
      scan.droppedLater stmt := rfl
    rw [Scan.stmts, stmtsTask, sameDropped, sameLater, boundBy_knowing]
    cases if tracked.isEmpty then scan.dropped? stmt else none with
    | some dropped => exact .done _
    | none =>
      exact (markAllTask_reads stmt touched.1 tracked).bind ((ih touched.2 _).bind (.done _))

theorem functionTask_reads (func : FuncDecl) (touched : scan.Touched touches func.callees) :
    Task.Reads touches store (scan.functionTask func)
      ((scan.knowing store.isDisposer).function func).2 := by
  unfold functionTask function
  unfold FuncDecl.callees at touched
  cases body : func.body with
  | none => exact .done []
  | some block =>
    rw [body] at touched
    cases block with
    | mk stmts span => exact stmtsTask_reads stmts touched []

end Touched

end Scan

/-! ### The summary of a package -/

namespace Summarizer

def openTask : List Candidate → Task (List Candidate)
  | [] => pure []
  | candidate :: later => do
    let written ← Task.isWritten candidate.key
    let others ← openTask later
    return if written then others else candidate :: others

def isKnownTask (program : Program) (verdicts : Verdicts) (symbol : SymbolId) : Task Bool :=
  match verdicts.lookup symbol with
  | some verdict => pure verdict
  | none =>
    match program.keyOf symbol with
    | some key => Task.isKnown key
    | none => pure false

/-- Whether all of some parameters are closed; the first that is not ends the
search. -/
def closesTask (view : FileView) (method : String) (ask : SymbolId → Task Bool) (body : Block) :
    List (Option SymbolId) → Task Bool
  | [] => pure true
  | none :: _ => pure false
  | some param :: later => do
    let search : DisposerSearch := ⟨view, method, fun _ => false, param⟩
    if ← search.inBlockTask ask body then closesTask view method ask body later
    else return false

def settled (all : List Candidate) (state : PassState) (candidate : Candidate) (index : Nat)
    (is : Bool) : PassState :=
  let verdicts := (candidate.symbol, is) :: state.verdicts
  if is && !isDisposer state.verdicts candidate.symbol then
    let callers := openCallers all verdicts candidate
    ⟨verdicts, callers.filter (index < ·) ++ state.queue, callers.filter (· < index) ++ state.next⟩
  else { state with verdicts }

section Tasks

variable (program : Program) (settings : AnalysisSettings) (package : Package)

def visitTask (all : List Candidate) (state : PassState) (entry : Candidate × Nat) :
    Task PassState := do
  let (candidate, index) := entry
  if !state.queue.contains index then return state
  else
    let is ← Task.or (pure (isDisposer state.verdicts candidate.symbol))
      (closesTask ⟨program, package, candidate.file⟩ settings.disposalMethod
        (isKnownTask program state.verdicts) candidate.body candidate.params)
    return settled all state candidate index is

def visitAllTask (all : List Candidate) : List (Candidate × Nat) → PassState → Task PassState
  | [], state => pure state
  | entry :: later, state => do
    visitAllTask all later (← visitTask program settings package all state entry)

def passesTask (all : List Candidate) : Nat → Verdicts → List Nat → Task (Nat × Verdicts)
  | 0, verdicts, _ => pure (0, verdicts)
  | bound + 1, verdicts, queue =>
    if queue.isEmpty then pure (0, verdicts)
    else do
      let state ← visitAllTask program settings package all all.zipIdx ⟨verdicts, queue, []⟩
      let (count, final) ← passesTask all bound state.verdicts state.next
      return (count + 1, final)

def writeAllTask : List (FuncKey × Bool) → Task (Except FactError Unit)
  | [] => pure (.ok ())
  | (key, fact) :: later => do
    match ← Task.tryWrite key fact with
    | .ok _ => writeAllTask later
    | .error error => return .error error

def takers : List Candidate :=
  package.files.flatMap fun file =>
    file.file.functions.filterMap (candidate? ⟨program, package, file.id⟩)

def runTask : Task (Except FactError SummaryReport) := do
  let all ← openTask (takers program package)
  let (count, final) ← passesTask program settings package all settings.maxSummaryPasses []
    (List.range all.length)
  let facts := all.map fun candidate => (candidate.key, isDisposer final candidate.symbol)
  let outcome ← writeAllTask facts
  return outcome.map fun _ => ⟨facts, (takers program package).length - all.length, count⟩

end Tasks

end Summarizer

/-- The keys that the analysis of a package looks at or writes: those of the
functions that it calls and of those that it declares. -/
def Program.Touches (program : Program) (package : Package) (key : FuncKey) : Prop :=
  ∃ id, package.Concerns id ∧ program.keyOf id = some key

namespace Summarizer

variable {summarizer : Summarizer}

section

variable (member : candidate ∈ summarizer.allCandidates)
include member

theorem touches_candidate : summarizer.program.Touches summarizer.package candidate.key :=
  ⟨candidate.symbol, .inr (summarizer.declares_of_mem_allCandidates member),
    summarizer.keyOf_candidate member⟩

theorem calls_of_candidate (inBody : callee ∈ candidate.body.callees) {target : SymbolId × Symbol}
    (found : (summarizer.view candidate.file).callee? callee = some target) :
    summarizer.package.Calls target.1 := by
  obtain ⟨numbered, inFiles, member⟩ := List.mem_flatMap.mp member
  obtain ⟨func, inFile, accepted⟩ := List.mem_filterMap.mp member
  unfold candidate? at accepted
  simp only [Option.bind_eq_bind, Option.bind_eq_some_iff] at accepted
  obtain ⟨body, isBody, id, _, _, _, _, _, _, _, accepted⟩ := accepted
  split at accepted
  · cases accepted
  · cases accepted
    obtain ⟨id, called, found⟩ := Option.bind_eq_some_iff.mp found
    obtain ⟨symbol, _, found⟩ := Option.bind_eq_some_iff.mp found
    cases found
    refine ⟨numbered, inFiles, func, inFile, callee, ?_, called⟩
    unfold FuncDecl.callees
    rw [isBody]
    exact inBody

omit member in
theorem openTask_reads (candidates : List Candidate)
    (touched : ∀ candidate ∈ candidates, touches candidate.key) :
    Task.Reads touches store (openTask candidates)
      (candidates.filter fun candidate => !store.contains candidate.key) := by
  induction candidates with
  | nil => exact .done []
  | cons candidate later ih =>
    rw [List.forall_mem_cons] at touched
    refine (Task.Reads.isWritten touched.1).bind ((ih touched.2).bind ?_)
    rw [List.filter_cons]
    cases store.contains candidate.key <;> exact .done _

omit member in
theorem isKnownTask_reads {symbol : SymbolId} (calls : summarizer.package.Calls symbol)
    (verdicts : Verdicts) :
    Task.Reads (summarizer.program.Touches summarizer.package) summarizer.facts
      (isKnownTask summarizer.program verdicts symbol) (summarizer.isKnown verdicts symbol) := by
  unfold isKnownTask isKnown
  cases verdicts.lookup symbol with
  | some verdict => exact .done verdict
  | none =>
    cases hasKey : summarizer.program.keyOf symbol with
    | none =>
      rw [Program.keyOf] at hasKey
      rw [hasKey]
      exact .done false
    | some key =>
      have touch : summarizer.program.Touches summarizer.package key :=
        ⟨symbol, .inl calls, hasKey⟩
      rw [Program.keyOf] at hasKey
      rw [hasKey]
      exact .isKnown touch

theorem closesTask_reads (verdicts : Verdicts) :
    Task.Reads (summarizer.program.Touches summarizer.package) summarizer.facts
      (closesTask (summarizer.view candidate.file) summarizer.settings.disposalMethod
        (isKnownTask summarizer.program verdicts) candidate.body candidate.params)
      (summarizer.closesParams (summarizer.isKnown verdicts) candidate) := by
  unfold closesParams
  induction candidate.params with
  | nil => exact .done true
  | cons param later ih =>
    cases param with
    | none => exact .done false
    | some param =>
      have asks : DisposerSearch.Asks
          ⟨summarizer.view candidate.file, summarizer.settings.disposalMethod,
            fun _ => false, param⟩
          (isKnownTask summarizer.program verdicts) (summarizer.isKnown verdicts)
          (summarizer.program.Touches summarizer.package) summarizer.facts
          candidate.body.callees := fun callee inBody target found =>
        isKnownTask_reads (calls_of_candidate member inBody found) verdicts
      refine (DisposerSearch.inBlockTask_reads candidate.body asks).bind ?_
      rw [List.all_cons]
      dsimp only
      cases DisposerSearch.inBlock _ candidate.body with
      | true => exact ih
      | false => exact .done false

end

theorem visit_eq (all : List Candidate) (state : PassState) (candidate : Candidate) (index : Nat) :
    summarizer.visit all state (candidate, index) =
      if !state.queue.contains index then state
      else settled all state candidate index (isDisposer state.verdicts candidate.symbol ||
        summarizer.closesParams (summarizer.isKnown state.verdicts) candidate) :=
  rfl

section Passes

variable {all : List Candidate}
  (among : ∀ candidate ∈ all, candidate ∈ summarizer.allCandidates)

include among

theorem visitAllTask_reads (entries : List (Candidate × Nat))
    (listed : ∀ entry ∈ entries, entry.1 ∈ all) (state : PassState) :
    Task.Reads (summarizer.program.Touches summarizer.package) summarizer.facts
      (visitAllTask summarizer.program summarizer.settings summarizer.package all entries state)
      (entries.foldl (summarizer.visit all) state) := by
  induction entries generalizing state with
  | nil => exact .done state
  | cons entry later ih =>
    rw [List.forall_mem_cons] at listed
    refine Task.Reads.bind ?_ (ih listed.2 _)
    obtain ⟨candidate, index⟩ := entry
    rw [visit_eq]
    unfold visitTask
    dsimp only
    cases state.queue.contains index with
    | false => exact .done state
    | true =>
      exact ((Task.Reads.done _).or
        (closesTask_reads (among candidate listed.1) state.verdicts)).bind (.done _)

theorem passesTask_reads (bound : Nat) (verdicts : Verdicts) (queue : List Nat) :
    Task.Reads (summarizer.program.Touches summarizer.package) summarizer.facts
      (passesTask summarizer.program summarizer.settings summarizer.package all bound verdicts queue)
      (summarizer.passes all bound verdicts queue) := by
  induction bound generalizing verdicts queue with
  | zero => exact .done _
  | succ bound ih =>
    unfold passesTask passes
    cases queue.isEmpty with
    | true => exact .done _
    | false =>
      refine (visitAllTask_reads among all.zipIdx ?_ _).bind ((ih _ _).bind (.done _))
      exact fun entry member => List.fst_mem_of_mem_zipIdx member

end Passes

/-- Facts that are all accepted are written as they come. -/
theorem writeAllTask_plays (facts : List (FuncKey × Bool))
    (touched : ∀ fact ∈ facts, touches fact.1) (wrote : writeAll store facts = (final, .ok ())) :
    ∃ added, Task.Plays touches store (writeAllTask facts) added (.ok ()) ∧
      store.putAll added = final ∧ ∀ fact ∈ added, fact ∈ facts := by
  induction facts generalizing store with
  | nil =>
    cases wrote
    exact ⟨[], .done _ _, rfl, by simp⟩
  | cons first later ih =>
    obtain ⟨key, fact⟩ := first
    rw [List.forall_mem_cons] at touched
    unfold writeAll at wrote
    rcases store.write_cases key fact with ⟨there, same⟩ | ⟨_, _, _, refused⟩ | ⟨free, added⟩
    · rw [same] at wrote
      obtain ⟨rest, plays, ends, among⟩ := ih touched.2 wrote
      exact ⟨rest, .rewrite touched.1 there plays, ends,
        fun fact member => List.mem_cons_of_mem _ (among fact member)⟩
    · rw [refused] at wrote
      cases wrote
    · rw [added] at wrote
      obtain ⟨rest, plays, ends, among⟩ := ih touched.2 wrote
      refine ⟨(key, fact) :: rest, .write touched.1 free plays, ends, ?_⟩
      exact List.forall_mem_cons.mpr ⟨List.mem_cons_self,
        fun fact member => List.mem_cons_of_mem _ (among fact member)⟩

theorem runTask_plays (ran : summarizer.run = (final, .ok report)) :
    ∃ added, Task.Plays (summarizer.program.Touches summarizer.package) summarizer.facts
        (runTask summarizer.program summarizer.settings summarizer.package) added (.ok report) ∧
      summarizer.facts.putAll added = final ∧
      ∀ fact ∈ added, ∃ candidate ∈ summarizer.allCandidates, candidate.key = fact.1 := by
  have among : ∀ candidate ∈ summarizer.candidates, candidate ∈ summarizer.allCandidates :=
    fun candidate member => ((summarizer.mem_candidates candidate).mp member).1
  have keyed : ∀ fact ∈ summarizer.verdicts.1,
      ∃ candidate ∈ summarizer.allCandidates, candidate.key = fact.1 := by
    intro fact member
    obtain ⟨candidate, isCandidate, rfl⟩ := List.mem_map.mp member
    exact ⟨candidate, among candidate isCandidate, rfl⟩
  obtain ⟨stored, outcome⟩ := Prod.ext_iff.mp ran
  have wrote : writeAll summarizer.facts summarizer.verdicts.1 = (final, .ok ()) :=
    Prod.ext stored (summarizer.run_ok_iff.mp ⟨report, outcome⟩)
  obtain ⟨added, writes, ends, fromFacts⟩ := writeAllTask_plays summarizer.verdicts.1
    (fun fact member => by
      obtain ⟨candidate, isCandidate, same⟩ := keyed fact member
      exact same ▸ touches_candidate isCandidate) wrote
  refine ⟨added, ?_, ends, fun fact member => keyed fact (fromFacts fact member)⟩
  have reported : report = ⟨summarizer.verdicts.1,
      summarizer.allCandidates.length - summarizer.candidates.length, summarizer.verdicts.2⟩ := by
    rw [run_eq, wrote] at outcome
    exact (Except.ok.inj outcome).symm
  rw [reported]
  have lists : Task.Reads (summarizer.program.Touches summarizer.package) summarizer.facts
      (openTask summarizer.allCandidates) summarizer.candidates :=
    openTask_reads summarizer.allCandidates fun candidate member => touches_candidate member
  have passes := passesTask_reads among summarizer.settings.maxSummaryPasses []
    (List.range summarizer.candidates.length)
  exact lists.goOn (passes.goOn (writes.map _))

end Summarizer

namespace Program

def scanAllTask (program : Program) (settings : AnalysisSettings) (package : Package) :
    List (FileId × FuncDecl) → Task (List Finding)
  | [] => pure []
  | (file, func) :: later => do
    let scan : Scan := ⟨⟨program, package, file⟩, settings, fun _ => false⟩
    let findings ← scan.functionTask func
    return findings ++ (← scanAllTask program settings package later)

/-- The work of one package: it is summarized, and checked if it was requested. -/
def packageTask (program : Program) (settings : AnalysisSettings) (package : Package) :
    Task (Except FactError (SummaryReport × List Finding)) := do
  match ← Summarizer.runTask program settings package with
  | .error error => return .error error
  | .ok report =>
    let findings ←
      if package.requested then
        scanAllTask program settings package
          (package.files.flatMap fun file => file.file.functions.map fun func => (file.id, func))
      else pure []
    return .ok (report, findings)

section Tasks

variable {program : Program} {settings : AnalysisSettings} {package : Package} {store : FactStore}

theorem scanAllTask_reads (bodies : List (FileId × FuncDecl))
    (called : ∀ body ∈ bodies, ∀ callee ∈ body.2.callees,
      ∀ key ∈ FileView.calleeKey? ⟨program, package, body.1⟩ callee,
        key ∈ program.calledKeys package) :
    Task.Reads (program.Touches package) store (scanAllTask program settings package bodies)
      (bodies.flatMap fun body =>
        ((program.scan settings store package body.1).function body.2).2) := by
  induction bodies with
  | nil => exact .done []
  | cons body later ih =>
    obtain ⟨file, func⟩ := body
    rw [List.forall_mem_cons] at called
    have touched : Scan.Touched ⟨⟨program, package, file⟩, settings, fun _ => false⟩
        (program.Touches package) func.callees := by
      intro callee member key found
      obtain ⟨id, calls, hasKey⟩ := calls_of_mem_calledKeys (called.1 callee member key found)
      exact ⟨id, .inl calls, hasKey⟩
    exact (Scan.functionTask_reads func touched).bind ((ih called.2).bind (.done _))

theorem checkTask_reads :
    Task.Reads (program.Touches package) store
      (scanAllTask program settings package
        (package.files.flatMap fun file => file.file.functions.map fun func => (file.id, func)))
      (program.checkPackage settings store package) := by
  have whole : program.checkPackage settings store package =
      (package.files.flatMap fun file => file.file.functions.map fun func =>
        (file.id, func)).flatMap fun body =>
          ((program.scan settings store package body.1).function body.2).2 := by
    rw [checkPackage_eq, List.flatMap_assoc]
    simp only [List.flatMap_map]
  rw [whole]
  apply scanAllTask_reads
  intro body member callee inBody key found
  obtain ⟨file, inFiles, member⟩ := List.mem_flatMap.mp member
  obtain ⟨func, inFile, rfl⟩ := List.mem_map.mp member
  exact List.mem_flatMap.mpr ⟨file, inFiles, List.mem_flatMap.mpr
    ⟨func, inFile, List.mem_filterMap.mpr ⟨callee, inBody, found⟩⟩⟩

theorem turn_plays (ran : (program.turn settings package store).run = (final, .ok report)) :
    ∃ added, Task.Plays (program.Touches package) store
        (Summarizer.runTask program settings package) added (.ok report) ∧
      store.putAll added = final ∧
      ∀ fact ∈ added, ∃ id, package.Declares id ∧ program.keyOf id = some fact.1 := by
  obtain ⟨added, plays, ends, fromCandidates⟩ := Summarizer.runTask_plays ran
  refine ⟨added, plays, ends, ?_⟩
  intro fact member
  obtain ⟨candidate, isCandidate, same⟩ := fromCandidates fact member
  exact ⟨candidate.symbol, Summarizer.declares_of_mem_allCandidates _ isCandidate,
    same ▸ Summarizer.keyOf_candidate _ isCandidate⟩

theorem packageTask_plays (plays : Task.Plays (program.Touches package) store
      (Summarizer.runTask program settings package) added (.ok report)) :
    Task.Plays (program.Touches package) store (program.packageTask settings package) added
      (.ok (report, program.requestedFindings settings (store.putAll added) package)) := by
  have whole : Task.Plays (program.Touches package) store
      (program.packageTask settings package) (added ++ [])
      (.ok (report, program.requestedFindings settings (store.putAll added) package)) := by
    refine plays.bind ?_
    dsimp only
    unfold requestedFindings
    cases package.requested with
    | true => exact Task.Reads.bind checkTask_reads (.done _)
    | false => exact .done _ _
  rwa [List.append_nil] at whole

end Tasks

end Program

end Unclosed
