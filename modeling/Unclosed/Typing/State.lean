import Unclosed.Typing.Info
import Unclosed.Types.MethodSet
import Unclosed.Types.Universe

/-!
The surroundings of a checked node, and the steps that type checking is made
of.  Blocks and functions push what they bind onto the stacks of the scope and
pop it when they are left.
-/

namespace Unclosed

/-- What is fixed while the declarations of one file are checked. -/
structure Environment where
  package : String
  file : FileId
  /-- The place of the file among those of the package. -/
  place : Nat
  /-- The names that each imported package declares. -/
  imported : List (String × Bindings)

structure Scope where
  packageNames : Bindings
  /-- The names that each file imports, the latest import first. -/
  fileNames : List Bindings
  /-- The names bound by the enclosing blocks, innermost block first. -/
  blocks : List Bindings
  /-- The result types of the enclosing functions, innermost function first. -/
  results : List (List TypeId)

namespace Scope

def empty : Scope := ⟨[], [], [], []⟩

def enter (scope : Scope) : Scope := { scope with blocks := [] :: scope.blocks }

def leave (scope : Scope) : Scope := { scope with blocks := scope.blocks.tail }

def call (scope : Scope) (types : List TypeId) : Scope :=
  { scope with results := types :: scope.results }

def exit (scope : Scope) : Scope := { scope with results := scope.results.tail }

def bind (scope : Scope) (name : String) (symbol : SymbolId) : Scope :=
  match scope.blocks with
  | [] => scope
  | innermost :: outer => { scope with blocks := ((name, symbol) :: innermost) :: outer }

def innermost? (scope : Scope) (name : String) : Option SymbolId :=
  match scope.blocks with
  | [] => none
  | innermost :: _ => innermost.lookup name

def lookup (scope : Scope) (name : String) : Option SymbolId :=
  scope.blocks.findSome? fun block => block.lookup name

def imported? (scope : Scope) (place : Nat) (name : String) : Option SymbolId :=
  scope.fileNames[place]?.bind fun names => names.lookup name

/-- Outside of all function bodies. -/
def isPackage (scope : Scope) : Bool := scope.blocks.isEmpty

end Scope

structure TypingState where
  types : TypeTable
  symbols : SymbolTable
  info : TypeInfo
  /-- The expressions found to denote types. -/
  typeSites : List Site
  /-- The place in the constant group being checked. -/
  iota : Option Nat

abbrev Typing (α : Type) : Type := ReaderT Environment (StateM TypingState) α

/-- Type checking that changes what is in scope. -/
abbrev Checker (α : Type) : Type := StateT Scope Typing α

def Checker.runIn {α : Type} (action : Checker α) (environment : Environment) (scope : Scope)
    (state : TypingState) : (α × Scope) × TypingState :=
  ((action.run scope).run environment).run state

namespace Typing

/-! ### The type table -/

def queryTypes {α : Type} (query : TypeTable → α) : Typing α := do
  return query (← get).types

def stepTypes {α : Type} (step : TypeTable → α × TypeTable) : Typing α :=
  modifyGet fun state =>
    let (value, types) := step state.types
    (value, { state with types })

def alloc (kind : TypeKind) : Typing TypeId := stepTypes fun types => types.alloc kind

def underlyingKind (type : TypeId) : Typing TypeKind :=
  queryTypes fun types => types.underlyingKind type

def defaultType (type : TypeId) : Typing TypeId := queryTypes fun types => types.defaultType type

/-! ### Symbols -/

def addSymbol (symbol : Symbol) : Typing SymbolId :=
  modifyGet fun state =>
    let (id, symbols) := state.symbols.add symbol
    (id, { state with symbols })

def setSymbolType (symbol : SymbolId) (type : TypeId) : Typing Unit :=
  modify fun state =>
    { state with symbols := state.symbols.modify symbol fun entry => { entry with type } }

def symbolKind? (symbol : SymbolId) : Typing (Option SymbolKind) := do
  return (← get).symbols.kind? symbol

def symbolType (symbol : SymbolId) : Typing TypeId := do
  return (((← get).symbols.get? symbol).map Symbol.type).getD TypeTable.invalid

def setIota (iota : Option Nat) : Typing Unit := modify fun state => { state with iota }

/-! ### Recorded information -/

def siteOf (span : Span) : Typing Site := do
  return ⟨(← read).file, span⟩

def modifyInfo (change : TypeInfo → TypeInfo) : Typing Unit :=
  modify fun state => { state with info := change state.info }

def report (span : Span) (message : String) : Typing Unit := do
  let site ← siteOf span
  modifyInfo fun info => { info with errors := info.errors ++ [⟨site, message⟩] }

def recordDef (ident : Ident) (symbol : SymbolId) : Typing Unit := do
  let site ← siteOf ident.span
  modifyInfo fun info => { info with defs := info.defs.insert site symbol }

def recordUse (ident : Ident) (symbol : SymbolId) : Typing Unit := do
  let site ← siteOf ident.span
  modifyInfo fun info => { info with uses := info.uses.insert site symbol }

def definedBy? (ident : Ident) : Typing (Option SymbolId) := do
  let site ← siteOf ident.span
  return (← get).info.defs.get? site

def recordSelection (span : Span) (selection : Selection) : Typing Unit := do
  let site ← siteOf span
  modifyInfo fun info => { info with selections := info.selections.insert site selection }

/-- Record the type of an expression, which is also the answer. -/
def record (span : Span) (type : TypeId) : Typing TypeId := do
  let site ← siteOf span
  modifyInfo fun info => { info with types := info.types.insert site type }
  return type

def recordType (span : Span) (type : TypeId) : Typing TypeId := do
  let site ← siteOf span
  modify fun state => { state with typeSites := site :: state.typeSites }
  record span type

def denotesType (expr : Expr) : Typing Bool := do
  let site ← siteOf expr.span
  return (← get).typeSites.contains site

def recordedType? (expr : Expr) : Typing (Option TypeId) := do
  let site ← siteOf expr.span
  return (← get).info.types.get? site

/-! ### Names -/

/-- Inner blocks hide outer ones, those hide the package, then the imports, then
the predeclared names. -/
def lookup (scope : Scope) (name : String) : Typing (Option SymbolId) := do
  let environment ← read
  return scope.lookup name
    <|> scope.packageNames.lookup name
    <|> scope.imported? environment.place name
    <|> Universe.lookup name

def lookupPackage (scope : Scope) (name : String) : Typing (Option SymbolId) := do
  match ← lookup scope name with
  | none => return none
  | some symbol =>
    match ← symbolKind? symbol with
    | some .package => return some symbol
    | _ => return none

def importedName? (import' : SymbolId) (name : String) : Typing (Option SymbolId) := do
  let environment ← read
  let state ← get
  return do
    let symbol ← state.symbols.get? import'
    let path ← symbol.imported
    let names ← environment.imported.lookup path
    names.lookup name

/-- Declare an identifier; its type is not known yet. -/
def declare (kind : SymbolKind) (ident : Ident) (packageLevel : Bool) (key : Option FuncKey) :
    Typing SymbolId := do
  let environment ← read
  let site ← siteOf ident.span
  let symbol ← addSymbol
    ⟨kind, ident.name, TypeTable.invalid, some site, environment.package, packageLevel, key, none⟩
  recordDef ident symbol
  return symbol

/-- Variables do not keep the type of an untyped constant. -/
def newLocal (ident : Ident) (type : TypeId) (kind : SymbolKind) : Typing SymbolId := do
  let bound ← if kind = .const then pure type else defaultType type
  let symbol ← declare kind ident false none
  setSymbolType symbol bound
  return symbol

/-- Create the symbol of a type declaration and, unless it is an alias, the
named type. -/
def declareTypeName (packageLevel : Bool) (name : Ident) (isAlias : Bool) : Typing SymbolId := do
  let symbol ← declare .typeName name packageLevel none
  unless isAlias do
    let package := (← read).package
    setSymbolType symbol (← stepTypes fun types => types.newNamed package name.name)
  return symbol

def completeType (name : Ident) (isAlias : Bool) (type : TypeId) : Typing Unit := do
  match ← definedBy? name with
  | none => return
  | some symbol =>
    if isAlias then setSymbolType symbol type
    else
      let named ← symbolType symbol
      stepTypes fun types => ((), types.setUnderlying named type)

/-- Give a declared name of the package its type. -/
def settleName (name : Ident) (type : TypeId) : Typing Unit := do
  match ← definedBy? name with
  | none => return
  | some symbol => setSymbolType symbol type

/-! ### Scopes -/

def pushBlock : Checker Unit := modify Scope.enter

def popBlock : Checker Unit := modify Scope.leave

def pushResults (types : List TypeId) : Checker Unit := modify fun scope => scope.call types

def popResults : Checker Unit := modify Scope.exit

/-- Bind a name in the innermost block; the blank identifier binds nothing. -/
def declareLocal (ident : Ident) (type : TypeId) (kind : SymbolKind) : Checker Unit := do
  unless ident.isBlank do
    let symbol ← newLocal ident type kind
    modify fun scope => scope.bind ident.name symbol

def declareLocals (type : TypeId) (kind : SymbolKind) : List Ident → Checker Unit
  | [] => pure ()
  | ident :: later => do
    declareLocal ident type kind
    declareLocals type kind later

/-- Bind the name of a type declaration before its type is resolved. -/
def declareType (name : Ident) (isAlias : Bool) (resolve : Checker TypeId) : Checker Unit := do
  let symbol ← declareTypeName (← get).isPackage name isAlias
  modify fun scope => scope.bind name.name symbol
  completeType name isAlias (← resolve)

end Typing

end Unclosed
