import Unclosed.Syntax.Tree

/-!
The calls that occur in statements and expressions, those in function literals
included.  A call is known by its callee.
-/

namespace Unclosed

mutual

def Expr.callees : Expr → List Expr
  | .call _ callee arguments _ => callee :: (callee.callees ++ calleesOfExprs arguments)
  | .function _ _ body => body.callees
  | .composite _ _ elements => calleesOfExprs elements
  | .keyValue _ key value => key.callees ++ value.callees
  | .paren _ operand | .selector _ operand _ | .star _ operand | .unary _ _ operand
  | .typeAssert _ operand _ => operand.callees
  | .index _ operand index => operand.callees ++ index.callees
  | .slice _ operand low high max =>
    operand.callees ++ calleesOfOption low ++ calleesOfOption high ++ calleesOfOption max
  | .binary _ _ left right => left.callees ++ right.callees
  | .ident _ | .literal _ _ _ | .type _ => []

def calleesOfOption : Option Expr → List Expr
  | none => []
  | some expr => expr.callees

def calleesOfExprs : List Expr → List Expr
  | [] => []
  | expr :: later => expr.callees ++ calleesOfExprs later

def Block.callees : Block → List Expr
  | .mk stmts _ => calleesOfStmts stmts

def calleesOfStmts : List Stmt → List Expr
  | [] => []
  | stmt :: later => stmt.callees ++ calleesOfStmts later

def Stmt.callees : Stmt → List Expr
  | .expr _ expr | .defer _ expr | .go _ expr | .incDec _ expr _ => expr.callees
  | .assign _ targets _ values => calleesOfExprs targets ++ calleesOfExprs values
  | .send _ channel value => channel.callees ++ value.callees
  | .decl _ decl => decl.callees
  | .returns _ results => calleesOfExprs results
  | .conditional _ init condition body alternative =>
    calleesOfOptionalStmt init ++ condition.callees ++ body.callees
      ++ calleesOfOptionalStmt alternative
  | .loop _ init condition post body =>
    calleesOfOptionalStmt init ++ calleesOfOption condition ++ calleesOfOptionalStmt post
      ++ body.callees
  | .range _ _ _ _ expr body => expr.callees ++ body.callees
  | .switch _ init tag clauses =>
    calleesOfOptionalStmt init ++ calleesOfOption tag ++ calleesOfClauses clauses
  | .typeSwitch _ init _ guard clauses =>
    calleesOfOptionalStmt init ++ guard.callees ++ calleesOfBodies clauses
  | .block body => body.callees
  | .labeled _ _ stmt => stmt.callees
  | .branch _ _ _ | .empty _ => []

def calleesOfOptionalStmt : Option Stmt → List Expr
  | none => []
  | some stmt => stmt.callees

def calleesOfClauses : List CaseClause → List Expr
  | [] => []
  | .mk exprs body _ :: later =>
    calleesOfExprs exprs ++ calleesOfStmts body ++ calleesOfClauses later

/-- Without the cases, which are types in a type switch. -/
def calleesOfBodies : List CaseClause → List Expr
  | [] => []
  | .mk _ body _ :: later => calleesOfStmts body ++ calleesOfBodies later

def Decl.callees : Decl → List Expr
  | .var specs | .const specs => calleesOfSpecs specs
  | .type _ => []

def calleesOfSpecs : List ValueSpec → List Expr
  | [] => []
  | .mk _ _ values _ _ :: later => calleesOfExprs values ++ calleesOfSpecs later

end

end Unclosed
