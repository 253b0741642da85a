import Unclosed.Typing.State

/-!
Typing rules that look only at types already found: operators, indexing,
iteration, unpacking of several results, names and selectors.
-/

namespace Unclosed

namespace TypeTable

/-- The element of an array, or of the array behind a pointer. -/
def arrayElem? (table : TypeTable) (type : TypeId) : Option TypeId :=
  match table.underlyingKind type with
  | .array _ elem => some elem
  | _ => none

def indexResult (table : TypeTable) (operand : TypeId) : TypeId :=
  match table.underlyingKind operand with
  | .slice elem | .array _ elem => elem
  | .map _ value => value
  | .basic kind => if kind.isString then basic .uint8 else invalid
  | .pointer elem => (table.arrayElem? elem).getD invalid
  | _ => invalid

def sliceResult (table : TypeTable) (operand : TypeId) : TypeId × TypeTable :=
  match table.underlyingKind operand with
  | .basic kind => (if kind.isString then basic .string else invalid, table)
  | .array _ elem => table.sliceOf elem
  | .pointer pointee =>
    match table.arrayElem? pointee with
    | some elem => table.sliceOf elem
    | none => (invalid, table)
  | .slice _ => (operand, table)
  | _ => (invalid, table)

def rangeTypes (table : TypeTable) (operand : TypeId) : TypeId × TypeId :=
  match table.underlyingKind operand with
  | .slice elem | .array _ elem => (basic .int, elem)
  | .basic kind =>
    if kind.isString then (basic .int, basic .int32) else (table.defaultType operand, invalid)
  | .map key value => (key, value)
  | .chan _ elem => (elem, invalid)
  | .pointer pointee =>
    match table.arrayElem? pointee with
    | some elem => (basic .int, elem)
    | none => (invalid, invalid)
  | _ => (invalid, invalid)

def chanElem? (table : TypeTable) (type : TypeId) : Option TypeId :=
  match table.underlyingKind type with
  | .chan _ elem => some elem
  | _ => none

def mapKey? (table : TypeTable) (type : TypeId) : Option TypeId :=
  match table.underlyingKind type with
  | .map key _ => some key
  | _ => none

def isMap (table : TypeTable) (type : TypeId) : Bool := (table.mapKey? type).isSome

def isUntypedBasic (table : TypeTable) (type : TypeId) : Bool :=
  match table.get type with
  | .basic kind => kind.isUntyped
  | _ => false

def binaryResult (table : TypeTable) (op : BinaryOp) (left right : TypeId) : TypeId :=
  if op.isComparison then basic .untypedBool
  else if op.isShift || op.isLogical then left
  else if table.isUntypedBasic left then right
  else left

def unaryResult (table : TypeTable) (op : UnaryOp) (operand : TypeId) : TypeId :=
  match op with
  | .recv => (table.chanElem? operand).getD invalid
  | _ => operand

def variadicElem? (table : TypeTable) (type : FuncType) : Option TypeId :=
  match type.params.getLast? with
  | some last =>
    match table.get last with
    | .slice elem => some elem
    | _ => none
  | none => none

def argumentHints (table : TypeTable) (type : FuncType) (spread : Bool) (count : Nat) :
    List (Option TypeId) :=
  (List.range count).map fun index =>
    if type.variadic && index + 1 ≥ type.params.length && !spread then table.variadicElem? type
    else type.params[index]?

/-- The types expected of the elements of a literal. -/
inductive ElementHints where
  | fields (fields : List StructField)
  | plain (key value : Option TypeId)

/-- The element types of a literal of the given type.  A literal of a pointer
type stands for the value behind it. -/
def elementHints (table : TypeTable) (type : TypeId) : ElementHints :=
  match table.underlyingKind ((table.pointerElem? type).getD type) with
  | .struct fields => .fields fields
  | .slice elem | .array _ elem => .plain none (some elem)
  | .map key value => .plain (some key) (some value)
  | _ => .plain none none

end TypeTable

/-- The value of a plain decimal literal, if it fits in 64 bits. -/
def decimalLength? (text : String) : Option Nat :=
  let digits := text.toList
  if digits.isEmpty || !digits.all Char.isDigit then none
  else
    let value := digits.foldl (fun value digit => value * 10 + (digit.toNat - '0'.toNat)) 0
    if value < UInt64.size then some value else none

/-- The array length that an expression denotes; only plain decimal literals are
evaluated. -/
def Expr.arrayLength? : Expr → Option Nat
  | .literal _ .int text => decimalLength? text
  | _ => none

def LiteralKind.type : LiteralKind → TypeId
  | .int => TypeTable.basic .untypedInt
  | .float => TypeTable.basic .untypedFloat
  | .string => TypeTable.basic .untypedString
  | .char => TypeTable.basic .untypedRune

namespace Typing

/-! ### Names and selectors -/

def checkIdent (scope : Scope) (ident : Ident) : Typing TypeId := do
  if ident.isBlank then return ← record ident.span TypeTable.invalid
  match ← lookup scope ident.name with
  | none =>
    report ident.span ("undefined: " ++ ident.name)
    record ident.span TypeTable.invalid
  | some symbol =>
    recordUse ident symbol
    let type ← symbolType symbol
    if ident.name == "iota" && (← get).iota.isNone && Universe.lookup "iota" == some symbol then
      report ident.span "cannot use iota outside constant declaration"
    match ← symbolKind? symbol with
    | some .typeName => recordType ident.span type
    | _ => record ident.span type

def checkQualified (span : Span) (package : SymbolId) (name : Ident) : Typing TypeId := do
  match ← importedName? package name.name with
  | none =>
    report name.span ("undefined: " ++ name.name)
    record span TypeTable.invalid
  | some symbol =>
    recordUse name symbol
    recordSelection span (.qualified symbol)
    let type ← symbolType symbol
    match ← symbolKind? symbol with
    | some .typeName => recordType span type
    | _ => record span type

def checkSelection (span : Span) (operand : TypeId) (name : Ident) : Typing TypeId := do
  let types := (← get).types
  if types.isInvalid operand then return ← record span operand
  match types.select? operand name.name with
  | some selection =>
    if let .method symbol _ _ := selection then recordUse name symbol
    recordSelection span selection
    record span (selection.type?.getD TypeTable.invalid)
  | none =>
    report name.span (types.text operand ++ " has no field or method " ++ name.name)
    record span TypeTable.invalid

def packageOperand? (scope : Scope) (operand : Expr) : Typing (Option (Ident × SymbolId)) := do
  match operand with
  | .ident name => return (← lookupPackage scope name.name).map fun symbol => (name, symbol)
  | _ => return none

def builtin? (scope : Scope) (callee : Expr) : Typing (Option (Ident × SymbolId)) := do
  match callee.unparen with
  | .ident name =>
    match ← lookup scope name.name with
    | none => return none
    | some symbol =>
      match ← symbolKind? symbol with
      | some .builtin => return some (name, symbol)
      | _ => return none
  | _ => return none

def builtinResult (name : String) (arguments : List TypeId) : Typing TypeId := do
  let first := arguments.head?.getD TypeTable.invalid
  if name == "len" || name == "cap" || name == "copy" then return TypeTable.basic .int
  else if name == "new" then stepTypes fun types => types.pointerTo first
  else if name == "make" || name == "append" then return first
  else if name == "recover" then return Universe.anyType
  else return TypeTable.emptyTuple

/-! ### Type names -/

def resolveName (scope : Scope) (ident : Ident) : Typing TypeId := do
  match ← lookup scope ident.name with
  | none =>
    report ident.span ("undefined: " ++ ident.name)
    return TypeTable.invalid
  | some symbol =>
    match ← symbolKind? symbol with
    | some .typeName =>
      recordUse ident symbol
      symbolType symbol
    | _ =>
      report ident.span (ident.name ++ " is not a type")
      return TypeTable.invalid

def qualifiedType? (scope : Scope) (package name : Ident) : Typing (Option SymbolId) := do
  match ← lookupPackage scope package.name with
  | none => return none
  | some import' =>
    recordUse package import'
    match ← importedName? import' name.name with
    | none => return none
    | some symbol =>
      match ← symbolKind? symbol with
      | some .typeName => return some symbol
      | _ => return none

def resolveQualified (scope : Scope) (package name : Ident) : Typing TypeId := do
  match ← qualifiedType? scope package name with
  | some symbol =>
    recordUse name symbol
    symbolType symbol
  | none =>
    report name.span ("undefined: " ++ package.name ++ "." ++ name.name)
    return TypeTable.invalid

def structFields (file : FileId) (names : List Ident) (syntaxType : TypeExpr) (type : TypeId) :
    List StructField :=
  if names.isEmpty then
    let name := syntaxType.embeddedName
    [⟨name, type, true, isExportedName name, some ⟨file, syntaxType.span⟩⟩]
  else
    names.map fun name => ⟨name.name, type, false, name.isExported, some ⟨file, name.span⟩⟩

/-! ### Bindings -/

/-- An expression that may bind a second variable to whether it succeeded. -/
def isCommaOk (value : Expr) : Typing Bool := do
  match value.unparen with
  | .index _ operand _ =>
    match ← recordedType? operand with
    | some type => queryTypes fun types => types.isMap type
    | none => return false
  | .typeAssert _ _ (some _) => return true
  | .unary _ .recv _ => return true
  | _ => return false

/-- The expected types of the bound values.  One value for several targets has
none. -/
def bindingHints (count : Nat) (values : List Expr) (hints : List (Option TypeId)) :
    List (Option TypeId) :=
  if count > 1 && values.length == 1 then [] else hints

/-- The types that the targets of an assignment get from the types of its
values. -/
def unpack (count : Nat) (values : List Expr) (types : List TypeId) : Typing (List TypeId) := do
  match values, types with
  | [value], [type] =>
    if count ≤ 1 then return types
    match ← queryTypes fun table => table.get type with
    | .tuple elems => return elems
    | _ =>
      if count == 2 && (← isCommaOk value) then return [type, TypeTable.basic .bool]
      else return List.replicate count TypeTable.invalid
  | _, _ => return types

/-- Bind a target of `:=`.  A name of the same block is assigned to. -/
def defineTarget (target : Expr) (type : TypeId) : Checker Unit := do
  match target.ident? with
  | none => report target.span "non-name on left side of :="
  | some ident =>
    unless ident.isBlank do
      match (← get).innermost? ident.name with
      | some symbol =>
        recordUse ident symbol
        let _ ← record target.span (← symbolType symbol)
      | none =>
        declareLocal ident type .var
        let _ ← record target.span (← defaultType type)

def defineTargets : List Expr → List TypeId → Checker Unit
  | [], _ => pure ()
  | target :: later, types => do
    defineTarget target (types.head?.getD TypeTable.invalid)
    defineTargets later types.tail

/-- Give a name of a `var` or `const` declaration its type.  In a body it is
bound from here on. -/
def bindName (kind : SymbolKind) (type : TypeId) (name : Ident) : Checker Unit := do
  if (← get).isPackage then
    settleName name (← if kind = .var then defaultType type else pure type)
  else
    declareLocal name type kind

def bindNames (kind : SymbolKind) (declared : Option TypeId) :
    List Ident → List TypeId → Checker Unit
  | [], _ => pure ()
  | name :: later, types => do
    bindName kind ((declared <|> types.head?).getD TypeTable.invalid) name
    bindNames kind declared later types.tail

/-- The type of the variable of one clause of a type switch. -/
def subjectType (subject : TypeId) (cases' : List TypeId) : Typing TypeId :=
  queryTypes fun types =>
    match cases' with
    | [single] => if types.isUntypedNil single then subject else single
    | _ => subject

/-- Declare an identifier that stays tied to its first declaration. -/
def redeclareLocal (ident : Ident) (type : TypeId) : Checker Unit := do
  let previous ← definedBy? ident
  declareLocal ident type .var
  if let some symbol := previous then recordDef ident symbol

/-- Bind the variable of one clause of a type switch. -/
def bindSubject (binding : Option Ident) (subject : TypeId) (cases' : List TypeId) :
    Checker Unit := do
  match binding with
  | none => return
  | some ident => redeclareLocal ident (← subjectType subject cases')

def bindRangeTarget (target : Expr) (type : TypeId) : Checker Unit := do
  match target.ident? with
  | none => return
  | some ident =>
    declareLocal ident type .var
    let _ ← record target.span type

def isBlankTarget (target : Expr) : Bool :=
  match target.ident? with
  | some ident => ident.isBlank
  | none => false

end Typing

end Unclosed
