import Unclosed.Types.MethodSet

/-!
Which values must be closed: those whose type satisfies the disposable
interface, and structs with exported fields whose types do.
-/

namespace Unclosed

/-- An exported field that must be closed on its own. -/
structure DisposalField where
  name : String
  typeName : String
  decl : Option Site

structure Disposal where
  needed : Bool
  typeName : String
  /-- Fields in declaration order; none when the value itself is closed. -/
  fields : List DisposalField

namespace TypeTable

def isTypeless (table : TypeTable) (type : TypeId) : Bool :=
  table.isInvalid type || table.isUntypedNil type

def isCloser (table : TypeTable) (closer type : TypeId) : Bool :=
  !table.isTypeless type && table.implements type closer

/-- The exported fields of a struct, or of the struct behind a pointer, that
satisfy the disposable interface. -/
def disposalFields (table : TypeTable) (closer type : TypeId) : List DisposalField :=
  let fields := (table.structFields? ((table.pointerElem? type).getD type)).getD []
  (fields.filter fun field => field.exported && table.isCloser closer field.type).map
    fun field => ⟨field.name, table.text field.type, field.decl⟩

def disposal (table : TypeTable) (closer type : TypeId) : Disposal :=
  if table.isTypeless type then ⟨false, table.text type, []⟩
  else if table.isCloser closer type then ⟨true, table.text type, []⟩
  else
    let fields := table.disposalFields closer type
    ⟨!fields.isEmpty, table.text type, fields⟩

end TypeTable

end Unclosed
