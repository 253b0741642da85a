import Unclosed.Analysis.View

/-!
Whether a body closes a parameter: it calls the disposal method on the
parameter or on a field chain that starts there, or hands it to a function known
to close what it is given.  The search looks at the statements of the body and
into conditionals, not into loops and switches.
-/

namespace Unclosed

/-- What a search for the closing of a parameter needs to know. -/
structure DisposerSearch where
  view : FileView
  method : String
  /-- The functions known to close what they are given. -/
  known : SymbolId → Bool
  param : SymbolId

namespace DisposerSearch

def isRooted (search : DisposerSearch) (expr : Expr) : Bool :=
  match search.view.accessPath? expr with
  | some path => path.root == search.param
  | none => false

def closesDirectly (search : DisposerSearch) (callee : Expr) : Bool :=
  match FileView.receiverOf? search.method callee with
  | some receiver => search.isRooted receiver
  | none => false

def isKnownDisposer (search : DisposerSearch) (callee : Expr) : Bool :=
  match search.view.callee? callee with
  | some (id, _) => search.known id
  | none => false

def handsOver (search : DisposerSearch) (callee : Expr) (arguments : List Expr) : Bool :=
  search.isKnownDisposer callee
    && ((search.view.receiver? callee).toList ++ arguments).any search.isRooted

mutual

def inExpr (search : DisposerSearch) : Expr → Bool
  | .call _ callee arguments _ =>
    search.closesDirectly callee || search.handsOver callee arguments
      || inLiteral search callee || inExpr search callee || inExprs search arguments
  | .paren _ operand | .unary _ _ operand => inExpr search operand
  | .binary _ _ left right => inExpr search left || inExpr search right
  | _ => false

def inExprs (search : DisposerSearch) : List Expr → Bool
  | [] => false
  | expr :: later => inExpr search expr || inExprs search later

/-- The body of a function literal that is called on the spot. -/
def inLiteral (search : DisposerSearch) : Expr → Bool
  | .paren _ inner => inLiteral search inner
  | .function _ _ body => inBlock search body
  | _ => false

def inBlock (search : DisposerSearch) : Block → Bool
  | .mk stmts _ => inStmts search stmts

def inStmts (search : DisposerSearch) : List Stmt → Bool
  | [] => false
  | stmt :: later => inStmt search stmt || inStmts search later

def inStmt (search : DisposerSearch) : Stmt → Bool
  | .conditional _ init _ body _ => inOptionalStmt search init || inBlock search body
  | .returns _ results => inExprs search results
  | .defer _ expr | .expr _ expr => inExpr search expr
  | .assign _ _ _ values => inExprs search values
  | .decl _ (.var specs) => inSpecs search specs
  | _ => false

def inOptionalStmt (search : DisposerSearch) : Option Stmt → Bool
  | none => false
  | some stmt => inStmt search stmt

def inSpecs (search : DisposerSearch) : List ValueSpec → Bool
  | [] => false
  | .mk _ _ values _ _ :: later => inExprs search values || inSpecs search later

end

end DisposerSearch

end Unclosed
