import Unclosed.Types.Symbol
import Unclosed.Types.Table

/-!
Predeclared types, constants and functions.
-/

namespace Unclosed

namespace Universe

def builtins : List String :=
  ["append", "cap", "close", "copy", "delete", "len", "make", "new", "panic", "print", "println",
   "recover"]

def basicTypes : List BasicKind :=
  BasicKind.all.filter fun kind => !kind.isUntyped && kind != .unsafePointer

def types : TypeId × TypeId × TypeTable :=
  let (signature, table) :=
    TypeTable.initial.alloc (.func ⟨[], [TypeTable.basic .string], false⟩)
  let (methods, table) := table.alloc (.interface ⟨[("Error", signature)], []⟩)
  let (error, table) := table.newNamed "" "error"
  let table := table.setUnderlying error methods
  let (any, table) := table.alloc (.interface ⟨[], []⟩)
  (error, any, table)

def errorType : TypeId := types.1

def anyType : TypeId := types.2.1

def initialTypes : TypeTable := types.2.2

def typeName (name : String) (type : TypeId) : Symbol := .predeclared .typeName name type

def predeclared : List Symbol :=
  basicTypes.map (fun kind => typeName kind.name (TypeTable.basic kind))
    ++ [typeName "byte" (TypeTable.basic .uint8), typeName "rune" (TypeTable.basic .int32),
        typeName "error" errorType, typeName "any" anyType,
        .predeclared .const "true" (TypeTable.basic .untypedBool),
        .predeclared .const "false" (TypeTable.basic .untypedBool),
        .predeclared .const "iota" (TypeTable.basic .untypedInt),
        .predeclared .nil "nil" (TypeTable.basic .untypedNil)]
    ++ builtins.map fun name => .predeclared .builtin name TypeTable.invalid

def initialSymbols : SymbolTable := ⟨predeclared.toArray⟩

def names : Bindings := predeclared.zipIdx.map fun (symbol, index) => (symbol.name, ⟨index⟩)

def lookup (name : String) : Option SymbolId := names.lookup name

end Universe

end Unclosed
