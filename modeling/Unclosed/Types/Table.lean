import Unclosed.Types.Kind

/-!
The table of all types of a program.  It starts with the invalid type, the
basic types and the empty tuple; pointers and slices of one element are shared.
-/

namespace Unclosed

structure TypeTable where
  kinds : Array TypeKind
  /-- The pointer type of an element, once it is made. -/
  pointers : List (TypeId × TypeId)
  /-- The slice type of an element, once it is made. -/
  slices : List (TypeId × TypeId)

namespace TypeTable

/-- Named types are followed and embedded fields are searched this deep. -/
def embeddingBound : Nat := 8

def initial : TypeTable where
  kinds := (TypeKind.invalid :: (BasicKind.all.map TypeKind.basic ++ [TypeKind.tuple []])).toArray
  pointers := []
  slices := []

def invalid : TypeId := ⟨0⟩

def basic (kind : BasicKind) : TypeId := ⟨BasicKind.all.idxOf kind + 1⟩

def emptyTuple : TypeId := ⟨BasicKind.all.length + 1⟩

def size (table : TypeTable) : Nat := table.kinds.size

/-- A place outside of the table holds the invalid type. -/
def get (table : TypeTable) (id : TypeId) : TypeKind := table.kinds[id.index]?.getD .invalid

def alloc (table : TypeTable) (kind : TypeKind) : TypeId × TypeTable :=
  (⟨table.kinds.size⟩, { table with kinds := table.kinds.push kind })

def pointerTo (table : TypeTable) (elem : TypeId) : TypeId × TypeTable :=
  match table.pointers.lookup elem with
  | some id => (id, table)
  | none =>
    let (id, table) := table.alloc (.pointer elem)
    (id, { table with pointers := (elem, id) :: table.pointers })

def sliceOf (table : TypeTable) (elem : TypeId) : TypeId × TypeTable :=
  match table.slices.lookup elem with
  | some id => (id, table)
  | none =>
    let (id, table) := table.alloc (.slice elem)
    (id, { table with slices := (elem, id) :: table.slices })

def tuple (table : TypeTable) (elems : List TypeId) : TypeId × TypeTable :=
  if elems.isEmpty then (emptyTuple, table) else table.alloc (.tuple elems)

def newNamed (table : TypeTable) (package name : String) : TypeId × TypeTable :=
  table.alloc (.named ⟨package, name, invalid, []⟩)

/-- Follow named types at most `bound` times. -/
def underlyingWithin (table : TypeTable) : Nat → TypeId → TypeId
  | 0, id => id
  | bound + 1, id =>
    match table.get id with
    | .named type =>
      if type.underlying = id then id else underlyingWithin table bound type.underlying
    | _ => id

def underlying (table : TypeTable) (id : TypeId) : TypeId :=
  table.underlyingWithin embeddingBound id

def underlyingKind (table : TypeTable) (id : TypeId) : TypeKind := table.get (table.underlying id)

def modifyNamed (table : TypeTable) (id : TypeId) (change : NamedType → NamedType) : TypeTable :=
  match table.get id with
  | .named type => { table with kinds := table.kinds.setIfInBounds id.index (.named (change type)) }
  | _ => table

/-- Give a named type its underlying type, which is never named itself. -/
def setUnderlying (table : TypeTable) (id underlying : TypeId) : TypeTable :=
  let resolved := table.underlying underlying
  table.modifyNamed id fun type => { type with underlying := resolved }

def addMethod (table : TypeTable) (id : TypeId) (method : Method) : TypeTable :=
  table.modifyNamed id fun type => { type with methods := type.methods ++ [method] }

def named? (table : TypeTable) (id : TypeId) : Option NamedType :=
  match table.get id with
  | .named type => some type
  | _ => none

def isInvalid (table : TypeTable) (id : TypeId) : Bool :=
  match table.get id with
  | .invalid => true
  | _ => false

def isUntypedNil (table : TypeTable) (id : TypeId) : Bool :=
  match table.get id with
  | .basic .untypedNil => true
  | _ => false

def isInterface (table : TypeTable) (id : TypeId) : Bool :=
  match table.underlyingKind id with
  | .interface _ => true
  | _ => false

def pointerElem? (table : TypeTable) (id : TypeId) : Option TypeId :=
  match table.underlyingKind id with
  | .pointer elem => some elem
  | _ => none

def structFields? (table : TypeTable) (id : TypeId) : Option (List StructField) :=
  match table.underlyingKind id with
  | .struct fields => some fields
  | _ => none

def func? (table : TypeTable) (id : TypeId) : Option FuncType :=
  match table.underlyingKind id with
  | .func type => some type
  | _ => none

/-- The type of a call to a function of the given type.  Several results are a
tuple. -/
def callResult (table : TypeTable) (id : TypeId) : TypeId × TypeTable :=
  match table.func? id with
  | some type =>
    match type.results with
    | [result] => (result, table)
    | results => table.tuple results
  | none => (invalid, table)

/-- The type that a value takes when it is bound to a new variable. -/
def defaultType (table : TypeTable) (id : TypeId) : TypeId :=
  match table.get id with
  | .basic kind => if kind.isUntyped then basic kind.defaultKind else id
  | _ => id

def dereferenced (table : TypeTable) (id : TypeId) : TypeId :=
  match table.get id with
  | .pointer elem => elem
  | _ => id

end TypeTable

end Unclosed
