import Unclosed.Syntax.Tree

/-!
Source files: imports, functions and the other top-level declarations.
-/

namespace Unclosed

structure ImportSpec where
  /-- A new name, the blank identifier, or a dot. -/
  rename : Option Ident
  path : String
  span : Span

def ImportSpec.defaultName (spec : ImportSpec) : String :=
  (spec.path.splitOn "/").getLast?.getD spec.path

def ImportSpec.localName (spec : ImportSpec) : String :=
  match spec.rename with
  | some ident => ident.name
  | none => spec.defaultName

structure FuncDecl where
  receiver : Option Field
  name : Ident
  signature : Signature
  body : Option Block
  span : Span

inductive TopLevel where
  | func (decl : FuncDecl)
  | decl (decl : Decl)

structure SyntaxFile where
  name : String
  package : Ident
  imports : List ImportSpec
  decls : List TopLevel
  span : Span

def SyntaxFile.functions (file : SyntaxFile) : List FuncDecl :=
  file.decls.filterMap fun
    | .func decl => some decl
    | .decl _ => none

end Unclosed
