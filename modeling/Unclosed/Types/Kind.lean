import Unclosed.Source.Map
import Unclosed.Syntax.Operator

/-!
Types of the analyzed program.  Types refer to each other by their place in a
table, so that a type may refer to itself.
-/

namespace Unclosed

/-- A type's place in the type table. -/
structure TypeId where
  index : Nat
deriving DecidableEq, Repr

/-- A declaration's place in the symbol table. -/
structure SymbolId where
  index : Nat
deriving DecidableEq, Repr

inductive BasicKind where
  | bool | int | int8 | int16 | int32 | int64 | uint | uint8 | uint16 | uint32 | uint64 | uintptr
  | float32 | float64 | complex64 | complex128 | string | unsafePointer
  | untypedBool | untypedInt | untypedRune | untypedFloat | untypedString | untypedNil
deriving DecidableEq, Repr

namespace BasicKind

def all : List BasicKind :=
  [bool, int, int8, int16, int32, int64, uint, uint8, uint16, uint32, uint64, uintptr, float32,
   float64, complex64, complex128, string, unsafePointer, untypedBool, untypedInt, untypedRune,
   untypedFloat, untypedString, untypedNil]

def name : BasicKind → String
  | bool => "bool"
  | int => "int"
  | int8 => "int8"
  | int16 => "int16"
  | int32 => "int32"
  | int64 => "int64"
  | uint => "uint"
  | uint8 => "uint8"
  | uint16 => "uint16"
  | uint32 => "uint32"
  | uint64 => "uint64"
  | uintptr => "uintptr"
  | float32 => "float32"
  | float64 => "float64"
  | complex64 => "complex64"
  | complex128 => "complex128"
  | string => "string"
  | unsafePointer => "unsafe.Pointer"
  | untypedBool => "untyped bool"
  | untypedInt => "untyped int"
  | untypedRune => "untyped rune"
  | untypedFloat => "untyped float"
  | untypedString => "untyped string"
  | untypedNil => "untyped nil"

def isUntyped : BasicKind → Bool
  | untypedBool | untypedInt | untypedRune | untypedFloat | untypedString | untypedNil => true
  | _ => false

def defaultKind : BasicKind → BasicKind
  | untypedBool => bool
  | untypedInt => int
  | untypedRune => int32
  | untypedFloat => float64
  | untypedString => string
  | kind => kind

def isString : BasicKind → Bool
  | string | untypedString => true
  | _ => false

end BasicKind

/-- A declared method; the signature leaves out the receiver. -/
structure Method where
  name : String
  signature : TypeId
  pointerReceiver : Bool
  symbol : SymbolId

/-- A defined type.  Predeclared types have an empty package. -/
structure NamedType where
  package : String
  name : String
  underlying : TypeId
  methods : List Method

structure StructField where
  name : String
  type : TypeId
  embedded : Bool
  exported : Bool
  decl : Option Site

structure InterfaceType where
  methods : List (String × TypeId)
  embedded : List TypeId

/-- The last parameter of a variadic function is a slice. -/
structure FuncType where
  params : List TypeId
  results : List TypeId
  variadic : Bool

inductive TypeKind where
  /-- The type of what could not be typed. -/
  | invalid
  | basic (kind : BasicKind)
  | named (type : NamedType)
  | pointer (elem : TypeId)
  | slice (elem : TypeId)
  /-- The length is absent when it is no plain decimal number. -/
  | array (length : Option Nat) (elem : TypeId)
  | map (key value : TypeId)
  | chan (dir : ChanDir) (elem : TypeId)
  | struct (fields : List StructField)
  | interface (type : InterfaceType)
  | func (type : FuncType)
  | tuple (elems : List TypeId)

/-- What a selector `x.name` denotes. -/
inductive Selection where
  | field (type : TypeId) (decl : Option Site)
  | method (symbol : SymbolId) (signature : TypeId) (pointerReceiver : Bool)
  | interfaceMethod (name : String) (signature : TypeId)
  /-- A name of an imported package. -/
  | qualified (symbol : SymbolId)

def Selection.type? : Selection → Option TypeId
  | field type _ => some type
  | method _ signature _ => some signature
  | interfaceMethod _ signature => some signature
  | qualified _ => none

end Unclosed
