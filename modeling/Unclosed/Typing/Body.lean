import Unclosed.Typing.Rules

/-!
Type checking of expressions, type expressions and statements.  Expressions are
checked against an expected type, which elided literal types are taken from.
Statements bind names in the innermost block; whatever else they put onto the
stacks of the scope they take off again.
-/

namespace Unclosed.Typing

mutual

def checkExpr (hint : Option TypeId) : Expr → Checker TypeId
  | .ident name => do checkIdent (← get) name
  | .literal span kind _ => record span kind.type
  | .composite span type elements => do
    let type ← checkLiteralType hint type
    checkElements (← queryTypes fun types => types.elementHints type) 0 elements
    record span type
  | .keyValue span key value => do
    let _ ← checkExpr none key
    record span (← checkExpr hint value)
  | .function span signature body => do
    let type ← resolveSignature signature
    pushBlock
    enterFunction signature
    checkBlock body
    popResults
    popBlock
    record span type
  | .paren span inner => do
    let type ← checkExpr hint inner
    if ← denotesType inner then recordType span type else record span type
  | .selector span operand name => do
    match ← packageOperand? (← get) operand with
    | some (ident, package) =>
      recordUse ident package
      checkQualified span package name
    | none => checkSelection span (← checkExpr none operand) name
  | .index span operand index => do
    let type ← checkExpr none operand
    let _ ← checkExpr (← queryTypes fun types => types.mapKey? type) index
    record span (← queryTypes fun types => types.indexResult type)
  | .slice span operand low high max => do
    let type ← checkExpr none operand
    checkOptional low
    checkOptional high
    checkOptional max
    record span (← stepTypes fun types => types.sliceResult type)
  | .typeAssert span operand type => do
    let _ ← checkExpr none operand
    record span ((← resolveOptional type).getD TypeTable.invalid)
  | .call span callee arguments spread => do
    match ← builtin? (← get) callee with
    | some (ident, symbol) =>
      recordUse ident symbol
      let types ← checkExprs none arguments
      record span (← builtinResult ident.name types)
    | none =>
      let type ← checkExpr none callee
      if ← denotesType callee then
        let _ ← checkExprs (some type) arguments
        record span type
      else
        match ← queryTypes fun types => types.func? type with
        | none =>
          let _ ← checkExprs none arguments
          record span TypeTable.invalid
        | some func =>
          let hints ← queryTypes fun types => types.argumentHints func spread arguments.length
          let _ ← checkHinted hints arguments
          record span (← stepTypes fun types => types.callResult type)
  | .star span operand => do
    let type ← checkExpr none operand
    if ← denotesType operand then
      recordType span (← stepTypes fun types => types.pointerTo type)
    else
      record span ((← queryTypes fun types => types.pointerElem? type).getD TypeTable.invalid)
  | .unary span .addr operand => do
    let elem ← queryTypes fun types => hint.bind types.pointerElem?
    let type ← checkExpr elem operand
    record span (← stepTypes fun types => types.pointerTo type)
  | .unary span op operand => do
    let type ← checkExpr hint operand
    record span (← queryTypes fun types => types.unaryResult op type)
  | .binary span op left right => do
    let leftType ← checkExpr none left
    let rightType ← checkExpr none right
    record span (← queryTypes fun types => types.binaryResult op leftType rightType)
  | .type type => do
    recordType type.span (← resolveType type)

def checkOptional : Option Expr → Checker Unit
  | none => pure ()
  | some expr => do
    let _ ← checkExpr none expr

def checkExprs (hint : Option TypeId) : List Expr → Checker (List TypeId)
  | [] => pure []
  | expr :: later => do
    let type ← checkExpr hint expr
    return type :: (← checkExprs hint later)

def checkHinted (hints : List (Option TypeId)) :
    List Expr → Checker (List TypeId)
  | [] => pure []
  | expr :: later => do
    let type ← checkExpr (hints.head?.bind id) expr
    return type :: (← checkHinted hints.tail later)

def checkLiteralType (hint : Option TypeId) : Option Expr → Checker TypeId
  | none => pure (hint.getD TypeTable.invalid)
  | some type => checkExpr none type

/-- Check the elements of a literal; `index` counts the elements before. -/
def checkElements (hints : TypeTable.ElementHints) (index : Nat) :
    List Expr → Checker Unit
  | [] => pure ()
  | .keyValue span key value :: later => do
    match hints with
    | .fields fields =>
      let field := key.ident?.bind fun name => fields.find? (·.name == name.name)
      if field.isNone then report key.span "unknown field in struct literal"
      let _ ← record span (← checkExpr (field.map StructField.type) value)
    | .plain keyHint valueHint =>
      let _ ← checkExpr keyHint key
      let _ ← record span (← checkExpr valueHint value)
    checkElements hints (index + 1) later
  | element :: later => do
    match hints with
    | .fields fields =>
      let _ ← checkExpr (fields[index]?.map StructField.type) element
    | .plain _ valueHint =>
      let _ ← checkExpr valueHint element
    checkElements hints (index + 1) later

-- Type expressions

def resolveType : TypeExpr → Checker TypeId
  | .name _ ident => do resolveName (← get) ident
  | .qualified _ package name => do resolveQualified (← get) package name
  | .pointer _ elem => do
    let type ← resolveType elem
    stepTypes fun types => types.pointerTo type
  | .slice _ elem | .ellipsis _ elem => do
    let type ← resolveType elem
    stepTypes fun types => types.sliceOf type
  | .array _ length elem => do
    checkOptional length
    let type ← resolveType elem
    alloc (.array (length.bind Expr.arrayLength?) type)
  | .map _ key value => do
    let keyType ← resolveType key
    let valueType ← resolveType value
    alloc (.map keyType valueType)
  | .chan _ dir elem => do
    let type ← resolveType elem
    alloc (.chan dir type)
  | .func _ signature => resolveSignature signature
  | .struct _ fields => do
    alloc (.struct (← resolveFields fields))
  | .interface _ elements => do
    alloc (.interface (← resolveInterface ⟨[], []⟩ elements))

def resolveOptional : Option TypeExpr → Checker (Option TypeId)
  | none => pure none
  | some type => some <$> resolveType type

def resolveFields : List Field → Checker (List StructField)
  | [] => pure []
  | .mk names syntaxType _ _ :: later => do
    let type ← resolveType syntaxType
    let fields := structFields (← read).file names syntaxType type
    return fields ++ (← resolveFields later)

def resolveInterface (type : InterfaceType) :
    List InterfaceElement → Checker InterfaceType
  | [] => pure type
  | .method name signature :: later => do
    let resolved ← resolveSignature signature
    resolveInterface { type with methods := type.methods ++ [(name.name, resolved)] } later
  | .embedded embedded :: later => do
    let resolved ← resolveType embedded
    resolveInterface { type with embedded := type.embedded ++ [resolved] } later

/-- The types of parameters or results; an unnamed one counts once. -/
def resolveParams : List Field → Checker (List TypeId)
  | [] => pure []
  | .mk names type _ _ :: later => do
    let resolved ← resolveType type
    return List.replicate (max names.length 1) resolved ++ (← resolveParams later)

def resolveSignature : Signature → Checker TypeId
  | .mk params results span => do
    let paramTypes ← resolveParams params
    let resultTypes ← resolveParams results
    alloc (.func ⟨paramTypes, resultTypes, (Signature.mk params results span).isVariadic⟩)

-- Functions

def bindFields (kind : SymbolKind) : List Field → Checker (List TypeId)
  | [] => pure []
  | .mk names type _ _ :: later => do
    let resolved ← resolveType type
    declareLocals resolved kind names
    return List.replicate (max names.length 1) resolved ++ (← bindFields kind later)

/-- Bind the parameters and results of a function around its body. -/
def enterFunction : Signature → Checker Unit
  | .mk params results _ => do
    let _ ← bindFields .param params
    pushResults (← bindFields .var results)

-- Statements

def checkBlock : Block → Checker Unit
  | .mk stmts _ => do
    pushBlock
    checkStmts stmts
    popBlock

def checkStmts : List Stmt → Checker Unit
  | [] => pure ()
  | stmt :: later => do
    checkStmt stmt
    checkStmts later

def checkStmt : Stmt → Checker Unit
  | .expr _ expr | .defer _ expr | .go _ expr | .incDec _ expr _ => do
    let _ ← checkExpr none expr
  | .assign _ targets .define values => do
    let hints := bindingHints targets.length values []
    let types ← unpack targets.length values (← checkHinted hints values)
    defineTargets targets types
  | .assign _ targets _ values => do
    let hints := bindingHints targets.length values (← checkTargets targets)
    let _ ← checkHinted hints values
  | .send _ channel value => do
    let type ← checkExpr none channel
    let _ ← checkExpr (← queryTypes fun types => types.chanElem? type) value
  | .decl _ decl => checkDecl decl
  | .returns _ results => do
    let expected := (← get).results.head?.getD []
    let hints := if results.length == expected.length then expected.map some else []
    let _ ← checkHinted hints results
  | .conditional _ init condition body alternative => do
    pushBlock
    checkOptionalStmt init
    let _ ← checkExpr none condition
    checkBlock body
    checkOptionalStmt alternative
    popBlock
  | .loop _ init condition post body => do
    pushBlock
    checkOptionalStmt init
    checkOptional condition
    checkOptionalStmt post
    checkBlock body
    popBlock
  | .range _ key value define expr body => do
    let type ← checkExpr none expr
    let (keyType, valueType) ← queryTypes fun types => types.rangeTypes type
    pushBlock
    checkRangeTarget define keyType key
    checkRangeTarget define valueType value
    checkBlock body
    popBlock
  | .switch _ init tag clauses => do
    pushBlock
    checkOptionalStmt init
    checkClauses (← checkTag tag) clauses
    popBlock
  | .typeSwitch _ init binding guard clauses => do
    pushBlock
    checkOptionalStmt init
    let subject ←
      match ← checkSubject guard with
      | some subject => pure subject
      | none => checkExpr none guard
    let _ ← record guard.span subject
    checkTypeClauses binding subject clauses
    popBlock
  | .block body => checkBlock body
  | .labeled _ _ stmt => checkStmt stmt
  | .branch _ _ _ | .empty _ => pure ()

def checkOptionalStmt : Option Stmt → Checker Unit
  | none => pure ()
  | some stmt => checkStmt stmt

/-- Check the targets of an assignment; their types are expected of the values.
The blank identifier takes any value. -/
def checkTargets : List Expr → Checker (List (Option TypeId))
  | [] => pure []
  | target :: later => do
    let type ← if isBlankTarget target then pure none else some <$> checkExpr none target
    return type :: (← checkTargets later)

def checkRangeTarget (define : Bool) (type : TypeId) : Option Expr → Checker Unit
  | none => pure ()
  | some target => do
    if define then bindRangeTarget target type
    else
      unless isBlankTarget target do
        let _ ← checkExpr none target

/-- The tag of a switch, whose type is expected of the cases. -/
def checkTag : Option Expr → Checker (Option TypeId)
  | none => pure none
  | some tag => some <$> checkExpr none tag

def checkClauses (tag : Option TypeId) : List CaseClause → Checker Unit
  | [] => pure ()
  | .mk exprs body _ :: later => do
    let _ ← checkExprs tag exprs
    pushBlock
    checkStmts body
    popBlock
    checkClauses tag later

/-- The operand of `.(type)`; any other guard is an expression like others. -/
def checkSubject : Expr → Checker (Option TypeId)
  | .paren _ inner => checkSubject inner
  | .typeAssert _ operand none => some <$> checkExpr none operand
  | _ => pure none

def checkTypeClauses (binding : Option Ident) (subject : TypeId) :
    List CaseClause → Checker Unit
  | [] => pure ()
  | .mk exprs body _ :: later => do
    let types ← checkExprs none exprs
    pushBlock
    bindSubject binding subject types
    checkStmts body
    popBlock
    checkTypeClauses binding subject later

-- Declarations

def checkDecl : Decl → Checker Unit
  | .var specs => checkVars specs
  | .const specs => checkConsts none specs
  | .type specs => checkTypes specs

def checkVars : List ValueSpec → Checker Unit
  | [] => pure ()
  | .mk names type values _ _ :: later => do
    let declared ← resolveOptional type
    let hints := bindingHints names.length values (List.replicate names.length declared)
    let types ← unpack names.length values (← checkHinted hints values)
    bindNames .var declared names types
    checkVars later

/-- Check a constant group.  A constant without type and value repeats the
latest declaration that has one. -/
def checkConsts (latest : Option (Nat → Checker (Option TypeId × List TypeId))) :
    List ValueSpec → Checker Unit
  | [] => setIota none
  | .mk names type values position _ :: later => do
    setIota (some position)
    let own := fun (count : Nat) => do
      let declared ← resolveOptional type
      let hints := bindingHints count values (List.replicate count declared)
      let types ← unpack count values (← checkHinted hints values)
      return (declared, types)
    let repeats := values.isEmpty && type.isNone
    let check := if repeats then latest.getD own else own
    let (declared, types) ← check names.length
    bindNames .const declared names types
    checkConsts (if repeats then latest else some own) later

def checkTypes : List TypeSpec → Checker Unit
  | [] => pure ()
  | .mk name isAlias type _ :: later => do
    declareType name isAlias (resolveType type)
    checkTypes later

end

end Unclosed.Typing
