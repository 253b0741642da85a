import Unclosed.Types.Interface

/-!
Type identity and the text of a type.  Both look a fixed number of levels into
types that refer to themselves.
-/

namespace Unclosed.TypeTable

/-- How many levels of a type are compared or written. -/
def nestingBound : Nat := 17

def sameTypes (same : TypeId → TypeId → Bool) : List TypeId → List TypeId → Bool
  | [], [] => true
  | first :: firsts, second :: seconds => same first second && sameTypes same firsts seconds
  | _, _ => false

def sameFields (same : TypeId → TypeId → Bool) : List StructField → List StructField → Bool
  | [], [] => true
  | first :: firsts, second :: seconds =>
    first.name == second.name && first.embedded == second.embedded
      && same first.type second.type && sameFields same firsts seconds
  | _, _ => false

def sameMethods (same : TypeId → TypeId → Bool) :
    List (String × TypeId) → List (String × TypeId) → Bool
  | [], [] => true
  | (firstName, first) :: firsts, (secondName, second) :: seconds =>
    firstName == secondName && same first second && sameMethods same firsts seconds
  | _, _ => false

/-- Identity up to the given number of levels; deeper levels differ unless they
are the same entry.  The invalid type is identical to every type. -/
def identicalWithin (table : TypeTable) : Nat → TypeId → TypeId → Bool
  | 0, first, second => first == second
  | bound + 1, first, second =>
    first == second ||
      let same := identicalWithin table bound
      match table.get first, table.get second with
      | .invalid, _ | _, .invalid => true
      | .basic firstKind, .basic secondKind => firstKind == secondKind
      | .pointer firstElem, .pointer secondElem => same firstElem secondElem
      | .slice firstElem, .slice secondElem => same firstElem secondElem
      | .array firstLength firstElem, .array secondLength secondElem =>
        firstLength == secondLength && same firstElem secondElem
      | .map firstKey firstValue, .map secondKey secondValue =>
        same firstKey secondKey && same firstValue secondValue
      | .chan firstDir firstElem, .chan secondDir secondElem =>
        firstDir == secondDir && same firstElem secondElem
      | .func firstFunc, .func secondFunc =>
        firstFunc.variadic == secondFunc.variadic
          && sameTypes same firstFunc.params secondFunc.params
          && sameTypes same firstFunc.results secondFunc.results
      | .tuple firstElems, .tuple secondElems => sameTypes same firstElems secondElems
      | .struct firstFields, .struct secondFields => sameFields same firstFields secondFields
      | .interface _, .interface _ =>
        sameMethods same (table.interfaceMethods first) (table.interfaceMethods second)
      | _, _ => false

def identical (table : TypeTable) (first second : TypeId) : Bool :=
  table.identicalWithin nestingBound first second

/-! ### Texts of types -/

def chanText : ChanDir → String
  | .both => "chan "
  | .send => "chan<- "
  | .recv => "<-chan "

/-- The parameters of a function; a variadic last one is written with dots. -/
def paramTexts (table : TypeTable) (write : TypeId → String) (variadic : Bool) :
    List TypeId → List String
  | [] => []
  | [last] =>
    match table.get last with
    | .slice elem => if variadic then ["..." ++ write elem] else [write last]
    | _ => [write last]
  | param :: later => write param :: paramTexts table write variadic later

def signatureText (table : TypeTable) (write : TypeId → String) (id : TypeId) : String :=
  match table.func? id with
  | none => "()"
  | some type =>
    let params := "(" ++ ", ".intercalate (table.paramTexts write type.variadic type.params) ++ ")"
    match type.results with
    | [] => params
    | [result] => params ++ " " ++ write result
    | results => params ++ " (" ++ ", ".intercalate (results.map write) ++ ")"

/-- The text of a type, cut after the given number of levels. -/
def textWithin (table : TypeTable) : Nat → TypeId → String
  | 0, _ => "..."
  | bound + 1, id =>
    let write := textWithin table bound
    match table.get id with
    | .invalid => "invalid type"
    | .basic kind => kind.name
    | .named type => if type.package.isEmpty then type.name else type.package ++ "." ++ type.name
    | .pointer elem => "*" ++ write elem
    | .slice elem => "[]" ++ write elem
    | .array (some length) elem => "[" ++ toString length ++ "]" ++ write elem
    | .array none elem => "[...]" ++ write elem
    | .map key value => "map[" ++ write key ++ "]" ++ write value
    | .chan dir elem => chanText dir ++ write elem
    | .struct fields =>
      let texts := fields.map fun field =>
        (if field.embedded then "" else field.name ++ " ") ++ write field.type
      "struct\x7b" ++ "; ".intercalate texts ++ "\x7d"
    | .interface _ =>
      let texts := (table.interfaceMethods id).map fun (name, signature) =>
        name ++ table.signatureText write signature
      "interface\x7b" ++ "; ".intercalate texts ++ "\x7d"
    | .func _ => "func" ++ table.signatureText write id
    | .tuple elems => "(" ++ ", ".intercalate (elems.map write) ++ ")"

def text (table : TypeTable) (id : TypeId) : String := table.textWithin nestingBound id

end Unclosed.TypeTable
