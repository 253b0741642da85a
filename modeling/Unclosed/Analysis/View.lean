import Unclosed.Analysis.Disposal
import Unclosed.Load.Program

/-!
Questions about the expressions of one file of a loaded program: types,
declarations, callees, receivers and access paths.
-/

namespace Unclosed

/-- A variable with the chain of fields selected from it. -/
structure AccessPath where
  root : SymbolId
  fields : List String
deriving DecidableEq, Repr

namespace AccessPath

/-- Whether one of two field chains continues the other. -/
def extends? : List String → List String → Bool
  | first :: firsts, second :: seconds => first == second && extends? firsts seconds
  | _, _ => true

def isCompatible (path : AccessPath) (root : SymbolId) (fields : List String) : Bool :=
  path.root == root && extends? path.fields fields

def isExactly (path : AccessPath) (root : SymbolId) (fields : List String) : Bool :=
  path.fields.length == fields.length && path.isCompatible root fields

end AccessPath

/-- A file of a package of a loaded program. -/
structure FileView where
  program : Program
  package : Package
  file : FileId

namespace FileView

def symbol? (view : FileView) (id : SymbolId) : Option Symbol := view.program.symbols.get? id

def typeOf (view : FileView) (expr : Expr) : Option TypeId :=
  view.package.info.typeOf view.file expr

def objectOf (view : FileView) (ident : Ident) : Option SymbolId :=
  view.package.info.objectOf view.file ident

def region (view : FileView) (site : Site) : Region := view.program.sources.region site

def disposal (view : FileView) (type : TypeId) : Disposal :=
  view.program.types.disposal view.program.closer type

/-! ### Calls -/

def callee? (view : FileView) (callee : Expr) : Option (SymbolId × Symbol) := do
  let id ← view.package.info.calleeOf view.file callee
  return (id, ← view.symbol? id)

def calleeKey? (view : FileView) (callee : Expr) : Option FuncKey := do
  (← view.callee? callee).2.key

def selectsMethod (view : FileView) (span : Span) : Bool :=
  match view.package.info.selections.get? ⟨view.file, span⟩ with
  | some (.method _ _ _) => true
  | some (.interfaceMethod _ _) => true
  | _ => false

def selectsField (view : FileView) (span : Span) : Bool :=
  match view.package.info.selections.get? ⟨view.file, span⟩ with
  | some (.field _ _) => true
  | _ => false

def receiver? (view : FileView) (callee : Expr) : Option Expr :=
  match callee.unparen with
  | .selector span operand _ => if view.selectsMethod span then some operand else none
  | _ => none

def receiverOf? (method : String) (callee : Expr) : Option Expr :=
  match callee.unparen with
  | .selector _ operand name => if name.name == method then some operand else none
  | _ => none

/-! ### Access paths -/

/-- The variable and field chain that an expression denotes, parentheses,
addresses and dereferences aside. -/
def accessPath? (view : FileView) : Expr → Option AccessPath
  | .ident name => do
    let root ← view.objectOf name
    if (← view.symbol? root).isVar then some ⟨root, []⟩ else none
  | .selector span operand name =>
    if view.selectsField span then
      (view.accessPath? operand).map fun path => { path with fields := path.fields ++ [name.name] }
    else none
  | .paren _ operand | .star _ operand | .unary _ .addr operand => view.accessPath? operand
  | _ => none

end FileView

end Unclosed
