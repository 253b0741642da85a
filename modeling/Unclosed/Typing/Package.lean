import Unclosed.Syntax.File
import Unclosed.Typing.Body

/-!
Type checking of a package.  Names are declared before anything is resolved, so
that files and declarations may refer to each other in any order.
-/

namespace Unclosed

structure NumberedFile where
  id : FileId
  file : SyntaxFile

/-- The names a package declares, in declaration order, and what was recorded
about its nodes. -/
structure CheckedPackage where
  names : Bindings
  info : TypeInfo

namespace Typing

/-! ### Imports -/

/-- The names that a file's imports bind, the latest first.  A dot import binds
all exported names of the package. -/
def importNames : List ImportSpec → Bindings → Typing Bindings
  | [], names => pure names
  | spec :: later, names => do
    let environment ← read
    match environment.imported.lookup spec.path with
    | none =>
      report spec.span ("could not import " ++ spec.path)
      importNames later names
    | some declared =>
      let name := spec.localName
      if name == "_" then importNames later names
      else if name == "." then
        let exported := declared.filter fun (name, _) => isExportedName name
        importNames later (exported.reverse ++ names)
      else
        let site ← siteOf spec.span
        let symbol ← addSymbol
          ⟨.package, name, TypeTable.invalid, some site, environment.package, false, none,
           some spec.path⟩
        if let some rename := spec.rename then recordDef rename symbol
        importNames later ((name, symbol) :: names)

/-! ### Declared names -/

def declareName (names : Bindings) (ident : Ident) (symbol : SymbolId) : Typing Bindings := do
  if ident.isBlank then return names
  if (names.lookup ident.name).isSome then
    report ident.span (ident.name ++ " redeclared in this block")
    return names
  return names ++ [(ident.name, symbol)]

def collectValueNames (kind : SymbolKind) : List Ident → Bindings → Typing Bindings
  | [], names => pure names
  | ident :: later, names => do
    let symbol ← declare kind ident true none
    collectValueNames kind later (← declareName names ident symbol)

def collectTypeNames : List TypeSpec → Bindings → Typing Bindings
  | [], names => pure names
  | spec :: later, names => do
    let symbol ← declareTypeName true spec.name spec.isAlias
    collectTypeNames later (← declareName names spec.name symbol)

/-- Declare a function.  Methods belong to their type, and `init` has no name
that a program could use. -/
def collectFunction (func : FuncDecl) (names : Bindings) : Typing Bindings := do
  if func.receiver.isSome then return names
  let key := FuncKey.function (← read).package func.name.name
  let symbol ← declare .func func.name true (some key)
  if func.name.name == "init" then return names
  declareName names func.name symbol

def collectNames : List TopLevel → Bindings → Typing Bindings
  | [], names => pure names
  | decl :: later, names => do
    let names ←
      match decl with
      | .decl (.type specs) => collectTypeNames specs names
      | .decl (.var specs) => collectValueNames .var (specs.flatMap ValueSpec.names) names
      | .decl (.const specs) => collectValueNames .const (specs.flatMap ValueSpec.names) names
      | .func func => collectFunction func names
    collectNames later names

/-! ### Types and signatures -/

def resolveTypeSpecs : List TypeSpec → Checker Unit
  | [] => pure ()
  | spec :: later => do
    completeType spec.name spec.isAlias (← resolveType spec.type)
    resolveTypeSpecs later

def resolveTypes : List TopLevel → Checker Unit
  | [] => pure ()
  | .decl (.type specs) :: later => do
    resolveTypeSpecs specs
    resolveTypes later
  | _ :: later => resolveTypes later

def receiverBase : TypeExpr → TypeExpr × Bool
  | .pointer _ elem => (elem, true)
  | type => (type, false)

def receiverType? (names : Bindings) (name : Ident) : Typing (Option TypeId) := do
  match names.lookup name.name with
  | none => return none
  | some symbol =>
    recordUse name symbol
    let type ← symbolType symbol
    return if ((← get).types.named? type).isSome then some type else none

def declareMethod (names : Bindings) (func : FuncDecl) (receiver : Field) (signature : TypeId) :
    Typing Unit := do
  match receiverBase receiver.type with
  | (.name _ typeName, pointer) =>
    match ← receiverType? names typeName with
    | none => report typeName.span ("undefined receiver type " ++ typeName.name)
    | some named =>
      let key := FuncKey.method (← read).package typeName.name pointer func.name.name
      let symbol ← declare .method func.name true (some key)
      setSymbolType symbol signature
      stepTypes fun types =>
        ((), types.addMethod named ⟨func.name.name, signature, pointer, symbol⟩)
  | _ => report receiver.span "invalid receiver type"

def resolveFunction (func : FuncDecl) : Checker Unit := do
  let signature ← resolveSignature func.signature
  match func.receiver with
  | some receiver => declareMethod (← get).packageNames func receiver signature
  | none => settleName func.name signature

def resolveFunctions : List FuncDecl → Checker Unit
  | [] => pure ()
  | func :: later => do
    resolveFunction func
    resolveFunctions later

/-! ### Values and bodies -/

def checkValues : List TopLevel → Checker Unit
  | [] => pure ()
  | .decl (.var specs) :: later => do
    checkVars specs
    checkValues later
  | .decl (.const specs) :: later => do
    checkConsts none specs
    checkValues later
  | _ :: later => checkValues later

/-- Check a function's body.  The receiver and the parameters are bound around
the body's block. -/
def checkFunction (func : FuncDecl) : Checker Unit := do
  match func.body with
  | none => return
  | some body =>
    pushBlock
    let _ ← bindFields .param func.receiver.toList
    enterFunction func.signature
    checkBlock body
    popResults
    popBlock

def checkFunctions : List FuncDecl → Checker Unit
  | [] => pure ()
  | func :: later => do
    checkFunction func
    checkFunctions later

/-! ### Packages -/

structure FileUnit where
  environment : Environment
  file : SyntaxFile

def fileUnits (package : String) (imported : List (String × Bindings)) (files : List NumberedFile) :
    List FileUnit :=
  files.zipIdx.map fun (numbered, place) =>
    ⟨⟨package, numbered.id, place, imported⟩, numbered.file⟩

def forEachFile (step : SyntaxFile → Checker Unit) :
    List FileUnit → Scope → StateM TypingState Scope
  | [], scope => pure scope
  | unit :: later, scope => do
    let (_, scope) ← ((step unit.file).run scope).run unit.environment
    forEachFile step later scope

def importFile (file : SyntaxFile) : Checker Unit := do
  let names ← importNames file.imports []
  modify fun scope => { scope with fileNames := scope.fileNames ++ [names] }

def collectFile (file : SyntaxFile) : Checker Unit := do
  let packageNames ← collectNames file.decls (← get).packageNames
  modify fun scope => { scope with packageNames }

def checkFiles (package : String) (imported : List (String × Bindings))
    (files : List NumberedFile) : StateM TypingState Bindings := do
  let units := fileUnits package imported files
  let scope ← forEachFile importFile units .empty
  let scope ← forEachFile collectFile units scope
  let scope ← forEachFile (fun file => resolveTypes file.decls) units scope
  let scope ← forEachFile (fun file => resolveFunctions file.functions) units scope
  let scope ← forEachFile (fun file => checkValues file.decls) units scope
  let scope ← forEachFile (fun file => checkFunctions file.functions) units scope
  return scope.packageNames

end Typing

/-- Check one package, given the names of the packages it imports.  New types
and symbols are added to the tables of the program. -/
def checkPackage (package : String) (imported : List (String × Bindings))
    (files : List NumberedFile) (types : TypeTable) (symbols : SymbolTable) :
    CheckedPackage × TypeTable × SymbolTable :=
  let (names, state) :=
    (Typing.checkFiles package imported files).run ⟨types, symbols, .empty, [], none⟩
  (⟨names, state.info⟩, state.types, state.symbols)

end Unclosed
