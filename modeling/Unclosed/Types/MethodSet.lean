import Unclosed.Types.Identity

/-!
Method sets, interface satisfaction and the resolution of selectors.  Methods
and fields of embedded fields count as the type's own unless a shallower one
has the name.
-/

namespace Unclosed.TypeTable

/-! ### Method sets -/

/-- A type to look into, and whether methods with pointer receivers apply. -/
structure Holder where
  type : TypeId
  addressable : Bool

/-- The methods declared on a type itself that apply to it. -/
def ownMethods (table : TypeTable) (holder : Holder) : List (String × TypeId) :=
  match table.get holder.type with
  | .named type =>
    (type.methods.filter fun method => holder.addressable || !method.pointerReceiver).map
      fun method => (method.name, method.signature)
  | _ => []

def embeddedHolder (table : TypeTable) (holder : Holder) (field : StructField) : Holder :=
  match table.get field.type with
  | .pointer elem => ⟨elem, true⟩
  | _ => ⟨field.type, holder.addressable⟩

def embeddedFields (table : TypeTable) (type : TypeId) : List StructField :=
  ((table.structFields? type).getD []).filter (·.embedded)

/-- Take the methods of embedded interfaces and list the other embedded types. -/
def visitEmbedded (table : TypeTable) (holder : Holder)
    (state : List (String × TypeId) × List Holder) (field : StructField) :
    List (String × TypeId) × List Holder :=
  let inner := table.embeddedHolder holder field
  if table.isInterface inner.type then
    ((table.interfaceMethods inner.type).foldl addNew state.1, state.2)
  else (state.1, state.2 ++ [inner])

/-- Look into the types of one depth, each type once. -/
def visitHolders (table : TypeTable) :
    List Holder → MethodSearch → List Holder → MethodSearch × List Holder
  | [], search, next => (search, next)
  | holder :: later, search, next =>
    if search.seen.contains holder.type then visitHolders table later search next
    else
      let own := (table.ownMethods holder).foldl addNew search.methods
      let (methods, deeper) :=
        (table.embeddedFields holder.type).foldl (table.visitEmbedded holder) (own, next)
      visitHolders table later ⟨methods, holder.type :: search.seen⟩ deeper

def collectMethods (table : TypeTable) : Nat → List Holder → MethodSearch → MethodSearch
  | 0, _, search => search
  | bound + 1, level, search =>
    let (search, next) := table.visitHolders level search []
    if next.isEmpty then search else collectMethods table bound next search

/-- The methods of a type: those with value receivers, for a pointer also those
with pointer receivers, and those of embedded fields. -/
def methodSet (table : TypeTable) (id : TypeId) : List (String × TypeId) :=
  if table.isInterface id then table.interfaceMethods id
  else
    let start : Holder :=
      match table.get id with
      | .pointer elem => ⟨elem, true⟩
      | _ => ⟨id, false⟩
    (table.collectMethods embeddingBound [start] ⟨[], []⟩).methods

def implements (table : TypeTable) (type interface : TypeId) : Bool :=
  if table.isInvalid type || !table.isInterface interface then false
  else
    let available := table.methodSet type
    (table.interfaceMethods interface).all fun (name, signature) =>
      available.any fun (have', signature') => have' == name && table.identical signature' signature

/-! ### Selectors -/

def interfaceSelection? (table : TypeTable) (id : TypeId) (name : String) : Option Selection :=
  ((table.interfaceMethods id).find? (·.1 == name)).map
    fun (name, signature) => .interfaceMethod name signature

def declaredMethod? (table : TypeTable) (id : TypeId) (name : String) : Option Selection :=
  match table.get id with
  | .named type =>
    (type.methods.find? (·.name == name)).map
      fun method => .method method.symbol method.signature method.pointerReceiver
  | _ => none

def structField? (table : TypeTable) (id : TypeId) (name : String) : Option Selection :=
  (((table.structFields? id).getD []).find? (·.name == name)).map
    fun field => .field field.type field.decl

def directSelection? (table : TypeTable) (id : TypeId) (name : String) : Option Selection :=
  match table.declaredMethod? id name with
  | some selection => some selection
  | none =>
    if table.isInterface id then table.interfaceSelection? id name
    else table.structField? id name

/-- Search the types of one depth, each once; list the types below them. -/
def searchLevel (table : TypeTable) (name : String) :
    List TypeId → List TypeId → List TypeId → Selection ⊕ (List TypeId × List TypeId)
  | [], seen, next => .inr (seen, next)
  | type :: later, seen, next =>
    if seen.contains type then searchLevel table name later seen next
    else
      match table.directSelection? type name with
      | some selection => .inl selection
      | none =>
        let below := (table.embeddedFields type).map fun field => table.dereferenced field.type
        searchLevel table name later (type :: seen) (next ++ below)

def searchLevels (table : TypeTable) (name : String) :
    Nat → List TypeId → List TypeId → Option Selection
  | 0, _, _ => none
  | bound + 1, level, seen =>
    match table.searchLevel name level seen [] with
    | .inl selection => some selection
    | .inr (seen, next) =>
      if next.isEmpty then none else searchLevels table name bound next seen

/-- Resolve `x.name` for an `x` of the given type, through pointers and embedded
fields. -/
def select? (table : TypeTable) (id : TypeId) (name : String) : Option Selection :=
  if table.isInterface id then table.interfaceSelection? id name
  else table.searchLevels name embeddingBound [table.dereferenced id] []

end Unclosed.TypeTable
