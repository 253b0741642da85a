import Unclosed.Analysis.Finding
import Unclosed.Analysis.View
import Unclosed.Facts.Store

/-!
The scan of a function body.  Values that must be closed are tracked from the
statement that binds them until a later statement closes them, returns them or
hands them to a function known to close what it is given.  The scan looks one
level into conditionals and not into loops and switches.
-/

namespace Unclosed

/-- A value to close, bound to a variable. -/
structure Tracked where
  /-- The variable, or the variable with a field. -/
  name : String
  typeName : String
  owner : SymbolId
  fields : List String
  ownerSpan : Span
  fieldDecl : Option Site
  resolved : Bool

structure Scan where
  view : FileView
  settings : AnalysisSettings
  /-- The functions known to close what they are given. -/
  isDisposer : FuncKey → Bool

namespace Scan

/-! ### Calls -/

def isNopWrapper (scan : Scan) (callee : Expr) : Bool :=
  match scan.view.calleeKey? callee with
  | some key => scan.settings.nopWrappers.contains key.text
  | none => false

def isKnownDisposer (scan : Scan) (callee : Expr) : Bool :=
  match scan.view.calleeKey? callee with
  | some key => scan.isDisposer key
  | none => false

/-- What closing the results of a call takes, result by result. -/
def resultsOf (scan : Scan) (expr : Expr) : List Disposal :=
  match expr.unparen with
  | .call span callee arguments spread =>
    if scan.isNopWrapper callee then []
    else
      match scan.view.typeOf (.call span callee arguments spread) with
      | none => []
      | some type =>
        match scan.view.program.types.get type with
        | .tuple elems => elems.map scan.view.disposal
        | _ => [scan.view.disposal type]
  | _ => []

def producesDisposable (scan : Scan) (expr : Expr) : Bool := (scan.resultsOf expr).any Disposal.needed

/-! ### Resolution of a tracked value -/

def mentions (scan : Scan) (value : Tracked) (expr : Expr) : Bool :=
  match scan.view.accessPath? expr with
  | some path => path.isCompatible value.owner value.fields
  | none => false

def closesDirectly (scan : Scan) (value : Tracked) (callee : Expr) : Bool :=
  match FileView.receiverOf? scan.settings.disposalMethod callee with
  | some receiver =>
    match scan.view.accessPath? receiver with
    | some path => path.isExactly value.owner value.fields
    | none => false
  | none => false

def handsOver (scan : Scan) (value : Tracked) (callee : Expr) (arguments : List Expr) : Bool :=
  scan.isKnownDisposer callee
    && ((scan.view.receiver? callee).toList ++ arguments).any (scan.mentions value)

mutual

/-- Whether returning an expression hands the tracked value to the caller. -/
def escapes (scan : Scan) (value : Tracked) : Expr → Bool
  | .composite span type elements =>
    scan.mentions value (.composite span type elements) || anyEscapes scan value elements
  | .keyValue span key inner =>
    scan.mentions value (.keyValue span key inner) || escapes scan value inner
  | .paren span operand =>
    scan.mentions value (.paren span operand) || escapes scan value operand
  | .unary span op operand =>
    scan.mentions value (.unary span op operand) || escapes scan value operand
  | .call span callee arguments spread =>
    scan.mentions value (.call span callee arguments spread)
      || receiverEscapes scan value callee || anyEscapes scan value arguments
  | expr => scan.mentions value expr

def anyEscapes (scan : Scan) (value : Tracked) : List Expr → Bool
  | [] => false
  | expr :: later => escapes scan value expr || anyEscapes scan value later

def receiverEscapes (scan : Scan) (value : Tracked) : Expr → Bool
  | .paren _ inner => receiverEscapes scan value inner
  | .selector span operand _ => scan.view.selectsMethod span && escapes scan value operand
  | _ => false

end

mutual

def disposes (scan : Scan) (value : Tracked) : Expr → Bool
  | .call _ callee arguments _ =>
    scan.closesDirectly value callee || scan.handsOver value callee arguments
      || literalResolves scan value callee || disposes scan value callee
      || anyDisposes scan value arguments
  | .paren _ operand | .unary _ _ operand => disposes scan value operand
  | .binary _ _ left right => disposes scan value left || disposes scan value right
  | _ => false

def anyDisposes (scan : Scan) (value : Tracked) : List Expr → Bool
  | [] => false
  | expr :: later => disposes scan value expr || anyDisposes scan value later

def literalResolves (scan : Scan) (value : Tracked) : Expr → Bool
  | .paren _ inner => literalResolves scan value inner
  | .function _ _ body => blockResolves scan value false body
  | _ => false

def blockResolves (scan : Scan) (value : Tracked) (nested : Bool) : Block → Bool
  | .mk stmts _ => anyResolves scan value nested stmts

def anyResolves (scan : Scan) (value : Tracked) (nested : Bool) : List Stmt → Bool
  | [] => false
  | stmt :: later => resolvesAt scan value nested stmt || anyResolves scan value nested later

/-- Whether a statement closes the tracked value or lets it go.  Inside of a
conditional further conditionals are not entered. -/
def resolvesAt (scan : Scan) (value : Tracked) (nested : Bool) : Stmt → Bool
  | .returns _ results => anyEscapes scan value results || anyDisposes scan value results
  | .defer _ expr | .go _ expr | .expr _ expr => disposes scan value expr
  | .assign _ _ _ values => anyDisposes scan value values
  | .decl _ (.var specs) => specsDispose scan value specs
  | .conditional _ init _ body _ =>
    !nested && (optionalResolves scan value init || blockResolves scan value true body)
  | _ => false

def optionalResolves (scan : Scan) (value : Tracked) : Option Stmt → Bool
  | none => false
  | some stmt => resolvesAt scan value true stmt

def specsDispose (scan : Scan) (value : Tracked) : List ValueSpec → Bool
  | [] => false
  | .mk _ _ values _ _ :: later => anyDisposes scan value values || specsDispose scan value later

end

def resolves (scan : Scan) (value : Tracked) (stmt : Stmt) : Bool :=
  scan.resolvesAt value false stmt

def markResolved (scan : Scan) (stmt : Stmt) (value : Tracked) : Tracked :=
  { value with resolved := value.resolved || scan.resolves value stmt }

/-! ### Binding -/

def finding (scan : Scan) (span : Span) (kind : FindingKind) : Finding where
  kind := kind
  region := scan.view.region ⟨scan.view.file, span⟩
  file := (scan.view.program.sources.fileName? scan.view.file).getD ""
  package := scan.view.package.path

/-- The values that an assignment binds for tracking, and what it binds to the
blank identifier. -/
structure Bound where
  tracked : List Tracked
  findings : List Finding

def Bound.none : Bound := ⟨[], []⟩

def Bound.append (first second : Bound) : Bound :=
  ⟨first.tracked ++ second.tracked, first.findings ++ second.findings⟩

def trackedValues (ident : Ident) (owner : SymbolId) (disposal : Disposal) : List Tracked :=
  if disposal.fields.isEmpty then
    [⟨ident.name, disposal.typeName, owner, [], ident.span, none, false⟩]
  else
    disposal.fields.map fun field =>
      ⟨ident.name ++ "." ++ field.name, field.typeName, owner, [field.name], ident.span,
       field.decl, false⟩

def bind (scan : Scan) (ident : Ident) (disposal : Disposal) : Bound :=
  if !disposal.needed then .none
  else if ident.isBlank then ⟨[], [scan.finding ident.span (.blank disposal.typeName)]⟩
  else
    match scan.view.objectOf ident with
    | none => .none
    | some owner => ⟨trackedValues ident owner disposal, []⟩

/-- Bind targets to results in order; targets that are no names bind nothing. -/
def bindAll (scan : Scan) : List (Option Ident) → List (Option Disposal) → Bound
  | some ident :: targets, some disposal :: results =>
    (scan.bind ident disposal).append (bindAll scan targets results)
  | _ :: targets, _ :: results => bindAll scan targets results
  | _, _ => .none

/-- A package variable that holds a value to close. -/
def isSuppressed (scan : Scan) (ident : Ident) : Bool :=
  match scan.view.objectOf ident with
  | none => false
  | some id =>
    (scan.view.package.names.any fun (_, symbol) => symbol == id) &&
      match scan.view.symbol? id with
      | some symbol => symbol.isGlobalVar && (scan.view.disposal symbol.type).needed
      | none => false

/-- What an assignment of values to targets binds.  Nothing is tracked once a
target is a package variable that holds a value to close. -/
def track (scan : Scan) (targets : List (Option Ident)) (values : List Expr) : Bound :=
  if (targets.filterMap id).any scan.isSuppressed then .none
  else
    match values with
    | [value] => scan.bindAll targets ((scan.resultsOf value).map some)
    | values => scan.bindAll targets (values.map fun value => (scan.resultsOf value).head?)

def boundBy (scan : Scan) : Stmt → Bound
  | .assign _ _ (.compound _) _ => .none
  | .assign _ targets _ values => scan.track (targets.map Expr.ident?) values
  | .decl _ (.var specs) =>
    specs.foldl (fun bound spec => bound.append (scan.track (spec.names.map some) spec.values))
      .none
  | _ => .none

/-! ### Bodies -/

def droppedCall? : Stmt → Option (Expr × DropCause)
  | .expr _ expr => some (expr, .bare)
  | .defer _ expr => some (expr, .defer)
  | .go _ expr => some (expr, .go)
  | _ => none

def dropped? (scan : Scan) (stmt : Stmt) : Option (Expr × DropCause) :=
  match droppedCall? stmt with
  | some (expr, cause) => if scan.producesDisposable expr then some (expr, cause) else none
  | none => none

/-- A dropped result behind the first tracked value; only bare calls count. -/
def droppedLater (scan : Scan) (stmt : Stmt) : List Finding :=
  match stmt with
  | .expr _ expr =>
    if scan.producesDisposable expr then [scan.finding expr.span (.dropped .bare)] else []
  | _ => []

def leak (scan : Scan) (value : Tracked) : Finding :=
  scan.finding value.ownerSpan
    (.notClosed value.name value.typeName (value.fieldDecl.map scan.view.region))

/-- Scan statements behind the given tracked values.  The answer tells whether
all tracked values were resolved, and the findings.  A result dropped before
anything is tracked ends the scan. -/
def stmts (scan : Scan) : List Stmt → List Tracked → Bool × List Finding
  | [], tracked =>
    let open' := tracked.filter fun value => !value.resolved
    (open'.isEmpty, open'.map scan.leak)
  | stmt :: later, tracked =>
    match if tracked.isEmpty then scan.dropped? stmt else none with
    | some (expr, cause) => (false, [scan.finding expr.span (.dropped cause)])
    | none =>
      let dropped := if tracked.isEmpty then [] else scan.droppedLater stmt
      let bound := scan.boundBy stmt
      let (verified, findings) :=
        stmts scan later (tracked.map (scan.markResolved stmt) ++ bound.tracked)
      (verified, dropped ++ bound.findings ++ findings)

def function (scan : Scan) (func : FuncDecl) : Bool × List Finding :=
  match func.body with
  | none => (true, [])
  | some body => scan.stmts body.stmts []

end Scan

end Unclosed
