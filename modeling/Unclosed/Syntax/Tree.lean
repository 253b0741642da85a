import Unclosed.Syntax.Operator
import Unclosed.Syntax.Span

/-!
The syntax tree of a source file.  Every node carries the byte range it was
read from; ranges identify the nodes of one file.
-/

namespace Unclosed

mutual

inductive Expr where
  | ident (name : Ident)
  | literal (span : Span) (kind : LiteralKind) (text : String)
  /-- The type is absent for an element literal that elides it. -/
  | composite (span : Span) (type : Option Expr) (elements : List Expr)
  | keyValue (span : Span) (key value : Expr)
  | function (span : Span) (signature : Signature) (body : Block)
  | paren (span : Span) (inner : Expr)
  | selector (span : Span) (operand : Expr) (name : Ident)
  | index (span : Span) (operand index : Expr)
  | slice (span : Span) (operand : Expr) (low high max : Option Expr)
  /-- The type is absent in the guard `x.(type)`. -/
  | typeAssert (span : Span) (operand : Expr) (type : Option TypeExpr)
  /-- `spread` marks a call whose last argument is followed by dots. -/
  | call (span : Span) (callee : Expr) (arguments : List Expr) (spread : Bool)
  /-- A dereference or a pointer type. -/
  | star (span : Span) (operand : Expr)
  | unary (span : Span) (op : UnaryOp) (operand : Expr)
  | binary (span : Span) (op : BinaryOp) (left right : Expr)
  /-- A type literal in expression position. -/
  | type (type : TypeExpr)

inductive TypeExpr where
  | name (span : Span) (ident : Ident)
  | qualified (span : Span) (package name : Ident)
  | pointer (span : Span) (elem : TypeExpr)
  | slice (span : Span) (elem : TypeExpr)
  /-- The length is absent when it is left to the literal. -/
  | array (span : Span) (length : Option Expr) (elem : TypeExpr)
  | map (span : Span) (key value : TypeExpr)
  | chan (span : Span) (dir : ChanDir) (elem : TypeExpr)
  | func (span : Span) (signature : Signature)
  | struct (span : Span) (fields : List Field)
  | interface (span : Span) (elements : List InterfaceElement)
  /-- The type of a variadic parameter. -/
  | ellipsis (span : Span) (elem : TypeExpr)

/-- A parameter, result, receiver or struct field; unnamed without names. -/
inductive Field where
  | mk (names : List Ident) (type : TypeExpr) (tag : Option String) (span : Span)

inductive Signature where
  | mk (params results : List Field) (span : Span)

inductive InterfaceElement where
  | method (name : Ident) (signature : Signature)
  | embedded (type : TypeExpr)

inductive Block where
  | mk (stmts : List Stmt) (span : Span)

inductive Stmt where
  | expr (span : Span) (expr : Expr)
  | assign (span : Span) (targets : List Expr) (op : AssignOp) (values : List Expr)
  | incDec (span : Span) (expr : Expr) (increment : Bool)
  | send (span : Span) (channel value : Expr)
  | decl (span : Span) (decl : Decl)
  | returns (span : Span) (results : List Expr)
  | defer (span : Span) (expr : Expr)
  | go (span : Span) (expr : Expr)
  /-- The alternative is another conditional or a block. -/
  | conditional (span : Span) (init : Option Stmt) (condition : Expr) (body : Block)
      (alternative : Option Stmt)
  | loop (span : Span) (init : Option Stmt) (condition : Option Expr) (post : Option Stmt)
      (body : Block)
  | range (span : Span) (key value : Option Expr) (define : Bool) (expr : Expr) (body : Block)
  | switch (span : Span) (init : Option Stmt) (tag : Option Expr) (clauses : List CaseClause)
  | typeSwitch (span : Span) (init : Option Stmt) (binding : Option Ident) (guard : Expr)
      (clauses : List CaseClause)
  | block (body : Block)
  | branch (span : Span) (kind : BranchKind) (label : Option Ident)
  | labeled (span : Span) (label : Ident) (stmt : Stmt)
  | empty (span : Span)

/-- A clause of a switch; a clause without expressions is the default. -/
inductive CaseClause where
  | mk (exprs : List Expr) (body : List Stmt) (span : Span)

/-- A declaration that may stand at top level and in a body. -/
inductive Decl where
  | var (specs : List ValueSpec)
  | const (specs : List ValueSpec)
  | type (specs : List TypeSpec)

/-- `position` counts the specs of one constant group. -/
inductive ValueSpec where
  | mk (names : List Ident) (type : Option TypeExpr) (values : List Expr) (position : Nat)
      (span : Span)

inductive TypeSpec where
  | mk (name : Ident) (isAlias : Bool) (type : TypeExpr) (span : Span)

end

namespace TypeExpr

def span : TypeExpr → Span
  | name span _ | qualified span _ _ | pointer span _ | slice span _ | array span _ _
  | map span _ _ | chan span _ _ | func span _ | struct span _ | interface span _
  | ellipsis span _ => span

def withSpan (span : Span) : TypeExpr → TypeExpr
  | name _ ident => name span ident
  | qualified _ package ident => qualified span package ident
  | pointer _ elem => pointer span elem
  | slice _ elem => slice span elem
  | array _ length elem => array span length elem
  | map _ key value => map span key value
  | chan _ dir elem => chan span dir elem
  | func _ signature => func span signature
  | struct _ fields => struct span fields
  | interface _ elements => interface span elements
  | ellipsis _ elem => ellipsis span elem

def isEllipsis : TypeExpr → Bool
  | ellipsis _ _ => true
  | _ => false

/-- The name an embedded field goes by: its type's name without pointer and
package. -/
def embeddedName : TypeExpr → String
  | name _ ident => ident.name
  | qualified _ _ ident => ident.name
  | pointer _ elem => elem.embeddedName
  | _ => ""

end TypeExpr

namespace Field

def names : Field → List Ident
  | mk names _ _ _ => names

def type : Field → TypeExpr
  | mk _ type _ _ => type

def tag : Field → Option String
  | mk _ _ tag _ => tag

def span : Field → Span
  | mk _ _ _ span => span

end Field

namespace Signature

def params : Signature → List Field
  | mk params _ _ => params

def results : Signature → List Field
  | mk _ results _ => results

def span : Signature → Span
  | mk _ _ span => span

def isVariadic (signature : Signature) : Bool :=
  match signature.params.getLast? with
  | some field => field.type.isEllipsis
  | none => false

end Signature

namespace Block

def stmts : Block → List Stmt
  | mk stmts _ => stmts

def span : Block → Span
  | mk _ span => span

end Block

namespace CaseClause

def exprs : CaseClause → List Expr
  | mk exprs _ _ => exprs

def body : CaseClause → List Stmt
  | mk _ body _ => body

def span : CaseClause → Span
  | mk _ _ span => span

def isDefault (clause : CaseClause) : Bool := clause.exprs.isEmpty

end CaseClause

namespace ValueSpec

def names : ValueSpec → List Ident
  | mk names _ _ _ _ => names

def type : ValueSpec → Option TypeExpr
  | mk _ type _ _ _ => type

def values : ValueSpec → List Expr
  | mk _ _ values _ _ => values

def position : ValueSpec → Nat
  | mk _ _ _ position _ => position

def span : ValueSpec → Span
  | mk _ _ _ _ span => span

def withPosition (position : Nat) : ValueSpec → ValueSpec
  | mk names type values _ span => mk names type values position span

end ValueSpec

namespace TypeSpec

def name : TypeSpec → Ident
  | mk name _ _ _ => name

def isAlias : TypeSpec → Bool
  | mk _ isAlias _ _ => isAlias

def type : TypeSpec → TypeExpr
  | mk _ _ type _ => type

def span : TypeSpec → Span
  | mk _ _ _ span => span

end TypeSpec

namespace Expr

def span : Expr → Span
  | ident name => name.span
  | type inner => inner.span
  | literal span _ _ | composite span _ _ | keyValue span _ _ | function span _ _
  | paren span _ | selector span _ _ | index span _ _ | slice span _ _ _ _
  | typeAssert span _ _ | call span _ _ _ | star span _ | unary span _ _
  | binary span _ _ _ => span

def unparen : Expr → Expr
  | paren _ inner => inner.unparen
  | expr => expr

def ident? (expr : Expr) : Option Ident :=
  match expr.unparen with
  | ident name => some name
  | _ => none

/-- The guard `x.(type)` of a type switch, parentheses aside. -/
def isTypeGuard (expr : Expr) : Bool :=
  match expr.unparen with
  | typeAssert _ _ none => true
  | _ => false

end Expr

def Stmt.span : Stmt → Span
  | .block body => body.span
  | .expr span _ | .assign span _ _ _ | .incDec span _ _ | .send span _ _ | .decl span _
  | .returns span _ | .defer span _ | .go span _ | .conditional span _ _ _ _
  | .loop span _ _ _ _ | .range span _ _ _ _ _ | .switch span _ _ _ | .typeSwitch span _ _ _ _
  | .branch span _ _ | .labeled span _ _ | .empty span => span

end Unclosed
