import Unclosed.Load.Program

/-!
Types of a loaded program by their written names.
-/

namespace Unclosed

def BasicKind.named? (name : String) : Option BasicKind :=
  BasicKind.all.find? fun kind => kind.name == name

namespace Program

/-- The type of a basic type's name, of `package/path.Name`, or of a predeclared
name. -/
def namedType? (program : Program) (name : String) : Option TypeId :=
  match BasicKind.named? name with
  | some kind => some (TypeTable.basic kind)
  | none => do
    let symbol ←
      match splitLastDot name with
      | some (package, name) => (← program.package? package).names.lookup name
      | none => Universe.lookup name
    return (← program.symbols.get? symbol).type

/-- The type that a name behind stars and brackets denotes.  Pointer and slice
types are added to the table. -/
def writtenType? (program : Program) (table : TypeTable) :
    List Char → Option (TypeId × TypeTable)
  | '*' :: rest => do
    let (elem, table) ← writtenType? program table rest
    return table.pointerTo elem
  | '[' :: ']' :: rest => do
    let (elem, table) ← writtenType? program table rest
    return table.sliceOf elem
  | name => do
    return (← program.namedType? (String.ofList name), table)

end Program

end Unclosed
