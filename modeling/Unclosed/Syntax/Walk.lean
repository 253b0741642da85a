import Unclosed.Syntax.File

/-!
The expressions and identifiers of a source file, each before its parts.
-/

namespace Unclosed

/-- A node of the syntax tree that type checking records something about. -/
inductive Node where
  | expr (expr : Expr)
  | ident (ident : Ident)

mutual

def Expr.nodes (expr : Expr) : List Node :=
  .expr expr ::
    match expr with
    | .ident name => [.ident name]
    | .literal _ _ _ => []
    | .composite _ type elements => optionalNodes type ++ exprNodes elements
    | .keyValue _ key value => key.nodes ++ value.nodes
    | .function _ signature body => signature.nodes ++ body.nodes
    | .paren _ inner => inner.nodes
    | .selector _ operand name => operand.nodes ++ [.ident name]
    | .index _ operand index => operand.nodes ++ index.nodes
    | .slice _ operand low high max =>
      operand.nodes ++ optionalNodes low ++ optionalNodes high ++ optionalNodes max
    | .typeAssert _ operand type => operand.nodes ++ optionalTypeNodes type
    | .call _ callee arguments _ => callee.nodes ++ exprNodes arguments
    | .star _ operand => operand.nodes
    | .unary _ _ operand => operand.nodes
    | .binary _ _ left right => left.nodes ++ right.nodes
    | .type type => type.nodes

def optionalNodes : Option Expr → List Node
  | none => []
  | some expr => expr.nodes

def exprNodes : List Expr → List Node
  | [] => []
  | expr :: later => expr.nodes ++ exprNodes later

def TypeExpr.nodes : TypeExpr → List Node
  | .name _ ident => [.ident ident]
  | .qualified _ package name => [.ident package, .ident name]
  | .pointer _ elem | .slice _ elem | .ellipsis _ elem | .chan _ _ elem => elem.nodes
  | .array _ length elem => optionalNodes length ++ elem.nodes
  | .map _ key value => key.nodes ++ value.nodes
  | .func _ signature => signature.nodes
  | .struct _ fields => fieldNodes fields
  | .interface _ elements => interfaceNodes elements

def optionalTypeNodes : Option TypeExpr → List Node
  | none => []
  | some type => type.nodes

def Signature.nodes : Signature → List Node
  | .mk params results _ => fieldNodes params ++ fieldNodes results

def fieldNodes : List Field → List Node
  | [] => []
  | .mk names type _ _ :: later => names.map .ident ++ type.nodes ++ fieldNodes later

def interfaceNodes : List InterfaceElement → List Node
  | [] => []
  | .method name signature :: later => .ident name :: (signature.nodes ++ interfaceNodes later)
  | .embedded type :: later => type.nodes ++ interfaceNodes later

def Block.nodes : Block → List Node
  | .mk stmts _ => stmtNodes stmts

def stmtNodes : List Stmt → List Node
  | [] => []
  | stmt :: later => stmt.nodes ++ stmtNodes later

/-- Labels are left out. -/
def Stmt.nodes : Stmt → List Node
  | .expr _ expr | .defer _ expr | .go _ expr | .incDec _ expr _ => expr.nodes
  | .assign _ targets _ values => exprNodes targets ++ exprNodes values
  | .send _ channel value => channel.nodes ++ value.nodes
  | .decl _ decl => decl.nodes
  | .returns _ results => exprNodes results
  | .conditional _ init condition body alternative =>
    optionalStmtNodes init ++ condition.nodes ++ body.nodes ++ optionalStmtNodes alternative
  | .loop _ init condition post body =>
    optionalStmtNodes init ++ optionalNodes condition ++ optionalStmtNodes post ++ body.nodes
  | .range _ key value _ expr body =>
    optionalNodes key ++ optionalNodes value ++ expr.nodes ++ body.nodes
  | .switch _ init tag clauses =>
    optionalStmtNodes init ++ optionalNodes tag ++ clauseNodes clauses
  | .typeSwitch _ init binding guard clauses =>
    optionalStmtNodes init ++ binding.toList.map .ident ++ guard.nodes ++ clauseNodes clauses
  | .block body => body.nodes
  | .labeled _ _ stmt => stmt.nodes
  | .branch _ _ _ | .empty _ => []

def optionalStmtNodes : Option Stmt → List Node
  | none => []
  | some stmt => stmt.nodes

def clauseNodes : List CaseClause → List Node
  | [] => []
  | .mk exprs body _ :: later => exprNodes exprs ++ stmtNodes body ++ clauseNodes later

def Decl.nodes : Decl → List Node
  | .var specs | .const specs => valueSpecNodes specs
  | .type specs => typeSpecNodes specs

def valueSpecNodes : List ValueSpec → List Node
  | [] => []
  | .mk names type values _ _ :: later =>
    names.map .ident ++ optionalTypeNodes type ++ exprNodes values ++ valueSpecNodes later

def typeSpecNodes : List TypeSpec → List Node
  | [] => []
  | .mk name _ type _ :: later => .ident name :: (type.nodes ++ typeSpecNodes later)

end

def FuncDecl.nodes (func : FuncDecl) : List Node :=
  fieldNodes func.receiver.toList ++ [.ident func.name] ++ func.signature.nodes
    ++ (func.body.map Block.nodes).getD []

def TopLevel.nodes : TopLevel → List Node
  | .func function => function.nodes
  | .decl declaration => declaration.nodes

/-- New names of imports first, then the declarations. -/
def SyntaxFile.nodes (file : SyntaxFile) : List Node :=
  (file.imports.filterMap fun spec => spec.rename.map Node.ident)
    ++ file.decls.flatMap TopLevel.nodes

end Unclosed
