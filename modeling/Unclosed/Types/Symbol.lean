import Unclosed.Facts.Key
import Unclosed.Types.Kind

/-!
Declarations.  Two occurrences of a name denote the same thing when they
resolve to the same place of the symbol table.
-/

namespace Unclosed

inductive SymbolKind where
  | var | param | const | typeName | func | method | package | builtin | nil
deriving DecidableEq, Repr

structure Symbol where
  kind : SymbolKind
  name : String
  type : TypeId
  decl : Option Site
  /-- The declaring package; empty for predeclared names. -/
  package : String
  packageLevel : Bool
  key : Option FuncKey
  /-- The package that an import refers to. -/
  imported : Option String

namespace Symbol

def predeclared (kind : SymbolKind) (name : String) (type : TypeId) : Symbol :=
  ⟨kind, name, type, none, "", false, none, none⟩

def isVar (symbol : Symbol) : Bool := symbol.kind == .var || symbol.kind == .param

def isGlobalVar (symbol : Symbol) : Bool := symbol.kind == .var && symbol.packageLevel

def isExported (symbol : Symbol) : Bool := isExportedName symbol.name

end Symbol

structure SymbolTable where
  symbols : Array Symbol

namespace SymbolTable

def empty : SymbolTable := ⟨#[]⟩

def size (table : SymbolTable) : Nat := table.symbols.size

def add (table : SymbolTable) (symbol : Symbol) : SymbolId × SymbolTable :=
  (⟨table.symbols.size⟩, ⟨table.symbols.push symbol⟩)

def get? (table : SymbolTable) (id : SymbolId) : Option Symbol := table.symbols[id.index]?

def modify (table : SymbolTable) (id : SymbolId) (change : Symbol → Symbol) : SymbolTable :=
  ⟨table.symbols.modify id.index change⟩

def kind? (table : SymbolTable) (id : SymbolId) : Option SymbolKind :=
  (table.get? id).map Symbol.kind

end SymbolTable

abbrev Bindings := List (String × SymbolId)

end Unclosed
