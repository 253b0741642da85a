import Unclosed.Syntax.Tree
import Unclosed.Types.Symbol

/-!
What type checking records about a package: the types of expressions, the
declarations behind identifiers, and the meaning of selectors.  Nodes are known
by their site.
-/

namespace Unclosed

/-- Values attached to sites; the latest value of a site counts. -/
structure SiteMap (α : Type) where
  entries : List (Site × α)

namespace SiteMap

variable {α : Type}

def empty : SiteMap α := ⟨[]⟩

def get? (map : SiteMap α) (site : Site) : Option α := map.entries.lookup site

def insert (map : SiteMap α) (site : Site) (value : α) : SiteMap α :=
  ⟨(site, value) :: map.entries⟩

end SiteMap

/-- A defect of a checked package.  Checking goes on behind it. -/
structure TypeError where
  site : Site
  message : String

structure TypeInfo where
  types : SiteMap TypeId
  /-- Identifiers that declare something. -/
  defs : SiteMap SymbolId
  /-- Identifiers that refer to something. -/
  uses : SiteMap SymbolId
  /-- Meanings of selector expressions. -/
  selections : SiteMap Selection
  /-- Defects in the order they were found. -/
  errors : List TypeError

namespace TypeInfo

def empty : TypeInfo := ⟨.empty, .empty, .empty, .empty, []⟩

def typeOf (info : TypeInfo) (file : FileId) (expr : Expr) : Option TypeId :=
  info.types.get? ⟨file, expr.span⟩

def objectOf (info : TypeInfo) (file : FileId) (ident : Ident) : Option SymbolId :=
  match info.defs.get? ⟨file, ident.span⟩ with
  | some symbol => some symbol
  | none => info.uses.get? ⟨file, ident.span⟩

def selectionOf (info : TypeInfo) (file : FileId) (expr : Expr) : Option Selection :=
  info.selections.get? ⟨file, expr.span⟩

/-- The function or method that a call of the given callee runs, if that is
known statically. -/
def calleeOf (info : TypeInfo) (file : FileId) (callee : Expr) : Option SymbolId :=
  match callee.unparen with
  | .ident name => info.uses.get? ⟨file, name.span⟩
  | .selector span _ _ =>
    match info.selections.get? ⟨file, span⟩ with
    | some (.method symbol _ _) => some symbol
    | some (.qualified symbol) => some symbol
    | _ => none
  | _ => none

end TypeInfo

end Unclosed
