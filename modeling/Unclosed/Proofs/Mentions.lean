import Unclosed.Syntax.File

/-!
The identifiers of a source file in source order, each with what it does where
it stands.  Labels are left out.
-/

namespace Unclosed

inductive Role where
  /-- It names a new type, as opposed to an alias. -/
  | newType
  /-- It names a function or method. -/
  | function
  /-- It refers to something or names something else. -/
  | plain
deriving DecidableEq, Repr

structure Mention where
  ident : Ident
  role : Role
deriving DecidableEq, Repr

namespace Mention

def plain (ident : Ident) : Mention := ⟨ident, .plain⟩

def span (mention : Mention) : Span := mention.ident.span

end Mention

mutual

def Expr.mentions : Expr → List Mention
  | .ident name => [.plain name]
  | .literal _ _ _ => []
  | .composite _ type elements => optionalMentions type ++ exprMentions elements
  | .keyValue _ key value => key.mentions ++ value.mentions
  | .function _ signature body => signature.mentions ++ body.mentions
  | .selector _ operand name => operand.mentions ++ [.plain name]
  | .index _ operand index => operand.mentions ++ index.mentions
  | .slice _ operand low high max =>
    operand.mentions ++ optionalMentions low ++ optionalMentions high ++ optionalMentions max
  | .typeAssert _ operand type => operand.mentions ++ optionalTypeMentions type
  | .call _ callee arguments _ => callee.mentions ++ exprMentions arguments
  | .paren _ operand | .star _ operand | .unary _ _ operand => operand.mentions
  | .binary _ _ left right => left.mentions ++ right.mentions
  | .type type => type.mentions

def optionalMentions : Option Expr → List Mention
  | none => []
  | some expr => expr.mentions

def exprMentions : List Expr → List Mention
  | [] => []
  | expr :: later => expr.mentions ++ exprMentions later

def TypeExpr.mentions : TypeExpr → List Mention
  | .name _ ident => [.plain ident]
  | .qualified _ package name => [.plain package, .plain name]
  | .pointer _ elem | .slice _ elem | .ellipsis _ elem | .chan _ _ elem => elem.mentions
  | .array _ length elem => optionalMentions length ++ elem.mentions
  | .map _ key value => key.mentions ++ value.mentions
  | .func _ signature => signature.mentions
  | .struct _ fields => fieldMentions fields
  | .interface _ elements => interfaceMentions elements

def optionalTypeMentions : Option TypeExpr → List Mention
  | none => []
  | some type => type.mentions

def Signature.mentions : Signature → List Mention
  | .mk params results _ => fieldMentions params ++ fieldMentions results

def fieldMentions : List Field → List Mention
  | [] => []
  | .mk names type _ _ :: later => names.map .plain ++ type.mentions ++ fieldMentions later

def interfaceMentions : List InterfaceElement → List Mention
  | [] => []
  | .method name signature :: later =>
    .plain name :: (signature.mentions ++ interfaceMentions later)
  | .embedded type :: later => type.mentions ++ interfaceMentions later

def Block.mentions : Block → List Mention
  | .mk stmts _ => stmtMentions stmts

def stmtMentions : List Stmt → List Mention
  | [] => []
  | stmt :: later => stmt.mentions ++ stmtMentions later

def Stmt.mentions : Stmt → List Mention
  | .expr _ expr | .defer _ expr | .go _ expr | .incDec _ expr _ => expr.mentions
  | .assign _ targets _ values => exprMentions targets ++ exprMentions values
  | .send _ channel value => channel.mentions ++ value.mentions
  | .decl _ decl => decl.mentions
  | .returns _ results => exprMentions results
  | .conditional _ init condition body alternative =>
    optionalStmtMentions init ++ condition.mentions ++ body.mentions
      ++ optionalStmtMentions alternative
  | .loop _ init condition post body =>
    optionalStmtMentions init ++ optionalMentions condition ++ optionalStmtMentions post
      ++ body.mentions
  | .range _ key value _ expr body =>
    optionalMentions key ++ optionalMentions value ++ expr.mentions ++ body.mentions
  | .switch _ init tag clauses =>
    optionalStmtMentions init ++ optionalMentions tag ++ clauseMentions clauses
  | .typeSwitch _ init binding guard clauses =>
    optionalStmtMentions init ++ binding.toList.map .plain ++ guard.mentions
      ++ clauseMentions clauses
  | .block body => body.mentions
  | .labeled _ _ stmt => stmt.mentions
  | .branch _ _ _ | .empty _ => []

def optionalStmtMentions : Option Stmt → List Mention
  | none => []
  | some stmt => stmt.mentions

def clauseMentions : List CaseClause → List Mention
  | [] => []
  | .mk exprs body _ :: later => exprMentions exprs ++ stmtMentions body ++ clauseMentions later

def Decl.mentions : Decl → List Mention
  | .var specs | .const specs => valueSpecMentions specs
  | .type specs => typeSpecMentions specs

def valueSpecMentions : List ValueSpec → List Mention
  | [] => []
  | .mk names type values _ _ :: later =>
    names.map .plain ++ optionalTypeMentions type ++ exprMentions values ++ valueSpecMentions later

def typeSpecMentions : List TypeSpec → List Mention
  | [] => []
  | .mk name isAlias type _ :: later =>
    ⟨name, if isAlias then .plain else .newType⟩ :: (type.mentions ++ typeSpecMentions later)

end

attribute [simp] Expr.mentions optionalMentions exprMentions TypeExpr.mentions
  optionalTypeMentions Signature.mentions fieldMentions interfaceMentions Block.mentions
  stmtMentions Stmt.mentions optionalStmtMentions clauseMentions Decl.mentions valueSpecMentions
  typeSpecMentions

theorem exprMentions_eq (exprs : List Expr) : exprMentions exprs = exprs.flatMap Expr.mentions := by
  induction exprs with
  | nil => rw [exprMentions, List.flatMap_nil]
  | cons expr later ih =>
    rw [exprMentions, ih, List.flatMap_cons]

theorem stmtMentions_eq (stmts : List Stmt) : stmtMentions stmts = stmts.flatMap Stmt.mentions := by
  induction stmts with
  | nil => rw [stmtMentions, List.flatMap_nil]
  | cons stmt later ih =>
    rw [stmtMentions, ih, List.flatMap_cons]

theorem Expr.unparen_mentions : ∀ expr : Expr, expr.unparen.mentions = expr.mentions
  | .paren _ inner => by
    rw [unparen, mentions]
    exact inner.unparen_mentions
  | .ident _ | .literal _ _ _ | .composite _ _ _ | .keyValue _ _ _ | .function _ _ _
  | .selector _ _ _ | .index _ _ _ | .slice _ _ _ _ _ | .typeAssert _ _ _ | .call _ _ _ _
  | .star _ _ | .unary _ _ _ | .binary _ _ _ _ | .type _ => rfl

theorem Expr.mentions_of_unparen {expr : Expr} {name : Ident} (same : expr.unparen = .ident name) :
    expr.mentions = [.plain name] := by
  rw [← unparen_mentions, same, mentions]

theorem Expr.mentions_of_ident? {expr : Expr} {name : Ident} (found : expr.ident? = some name) :
    expr.mentions = [.plain name] := by
  unfold ident? at found
  split at found
  · next same =>
    cases found
    exact mentions_of_unparen same
  · cases found

def FuncDecl.mentions (func : FuncDecl) : List Mention :=
  fieldMentions func.receiver.toList ++ [⟨func.name, .function⟩] ++ func.signature.mentions
    ++ func.body.elim [] Block.mentions

def TopLevel.mentions : TopLevel → List Mention
  | .func function => function.mentions
  | .decl declaration => declaration.mentions

def SyntaxFile.mentions (file : SyntaxFile) : List Mention :=
  file.imports.flatMap (fun spec => spec.rename.toList.map .plain)
    ++ file.decls.flatMap TopLevel.mentions

end Unclosed
