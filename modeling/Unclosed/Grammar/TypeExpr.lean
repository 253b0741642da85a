import Unclosed.Grammar.Rules

/-!
Types, parameter lists, struct fields and interface elements.
-/

namespace Unclosed.Grammar

open Grammar.Parser

/-! ### Parameter lists -/

/-- One entry of a parameter list before names are grouped with types. -/
structure FieldEntry where
  name : Option Ident
  type : TypeExpr
  span : Span

def namedEntry (rules : Rules) : Parser (Option Ident × TypeExpr) := do
  let name ← identifier
  lineBlanks
  let cursor ← here
  match cursor.rest with
  | ',' :: _ | ')' :: _ => failSaying "unnamed parameter"
  | '.' :: '.' :: '.' :: _ => pure ()
  | '.' :: _ => failSaying "unnamed parameter"
  | _ => pure ()
  let type ← rules.typeHere
  pure (some name, type)

def unnamedEntry (rules : Rules) : Parser (Option Ident × TypeExpr) := do
  let type ← rules.typeHere
  pure (none, type)

def fieldEntry (rules : Rules) : Parser FieldEntry := do
  let start ← here
  let (name, type) ← namedEntry rules <|> unnamedEntry rules
  let span ← spanFrom start
  pure ⟨name, type, span⟩

def parameterTurn (rules : Rules) : Parser (Turn FieldEntry) := do
  blanks
  if ← nextIs ")" then
    pure .stop
  else
    let entry ← context "parameter" (fieldEntry rules)
    if ← accepts (symbol ",") then pure (.more entry) else pure (.last entry)

def fieldEntries (rules : Rules) : Parser (List FieldEntry) :=
  collect (parameterTurn rules) rules.bound

/-- Group a list with names: bare names wait for the type that follows them. -/
def groupNamed : List (Ident × Span) → List FieldEntry → List Field
  | _, [] => []
  | pending, ⟨some name, type, span⟩ :: later =>
    let covered :=
      match pending with
      | [] => span
      | (_, first) :: _ => first.merge span
    .mk (pending.map Prod.fst ++ [name]) type none covered :: groupNamed [] later
  | pending, ⟨none, .name _ ident, span⟩ :: later => groupNamed (pending ++ [(ident, span)]) later
  | pending, ⟨none, _, _⟩ :: later => groupNamed pending later

/-- The parameters that a list of entries declares.  A list without any name is
a list of types. -/
def groupParams (entries : List FieldEntry) : List Field :=
  if entries.all (·.name.isNone) then
    entries.map fun entry => .mk [] entry.type none entry.span
  else
    groupNamed [] entries

/-- Whether the line goes on without a result type. -/
def endsSignature (cursor : Cursor) : Bool :=
  match cursor.rest with
  | [] | '\n' :: _ | ';' :: _ | '{' :: _ | '}' :: _ | '/' :: '/' :: _ | '/' :: '*' :: _ => true
  | _ => false

def results (rules : Rules) : Parser (List Field) := do
  let cursor ← here
  if endsSignature cursor then
    pure []
  else if ← accept "(" then
    let entries ← fieldEntries rules
    symbol ")"
    pure (groupParams entries)
  else
    match ← probe rules.typeHere with
    | some type => pure [.mk [] type none type.span]
    | none => pure []

def signature (rules : Rules) : Parser Signature := do
  blanks
  let start ← here
  tag "("
  let entries ← fieldEntries rules
  symbol ")"
  lineBlanks
  let fields ← results rules
  let span ← spanFrom start
  pure (.mk (groupParams entries) fields span)

/-! ### Fields and interface elements -/

def namedField (rules : Rules) : Parser (List Ident × TypeExpr) := do
  let names ← separated rules.bound (symbol ",") identifier
  lineBlanks
  let type ← rules.typeHere
  pure (names, type)

def embeddedField (rules : Rules) : Parser (List Ident × TypeExpr) := do
  let type ← rules.typeHere
  pure ([], type)

def fieldTag : Parser (Option String) := do
  let cursor ← here
  match cursor.rest with
  | '"' :: _ | '`' :: _ =>
    match ← stringLiteral with
    | .literal _ _ text => pure (some text)
    | _ => pure none
  | _ => pure none

def structField (rules : Rules) : Parser Field := do
  blanks
  let start ← here
  let (names, type) ← namedField rules <|> embeddedField rules
  lineBlanks
  let tag ← fieldTag
  let span ← spanFrom start
  pure (.mk names type tag span)

def interfaceMethod (rules : Rules) : Parser InterfaceElement := do
  let name ← identifier
  if ← nextIs "(" then
    let signature ← signature rules
    pure (.method name signature)
  else
    failSaying "expected method signature"

def interfaceElement (rules : Rules) : Parser InterfaceElement :=
  interfaceMethod rules <|> (do
    let type ← rules.type
    pure (.embedded type))

def itemTurn {α : Type} (closing : String) (item : Parser α) : Parser (Turn α) := do
  blanks
  if ← accept closing then
    pure .stop
  else
    let next ← item
    statementEnd
    pure (.more next)

/-- Items up to a closing bracket, each ended like a statement. -/
def itemsUntil {α : Type} (rules : Rules) (closing : String) (item : Parser α) :
    Parser (List α) :=
  collect (itemTurn closing item) rules.bound

/-! ### Types

Each production leaves the range open, which ends where the whole type does. -/

def pointerType (rules : Rules) : Parser (Span → TypeExpr) := do
  tag "*"
  let elem ← rules.type
  pure fun span => .pointer span elem

def arrayOrSliceType (rules : Rules) : Parser (Span → TypeExpr) := do
  tag "["
  if ← accepts (symbol "]") then
    let elem ← rules.type
    pure fun span => .slice span elem
  else if ← accepts (symbol "...") then
    symbol "]"
    let elem ← rules.type
    pure fun span => .array span none elem
  else
    let length ← rules.expression
    symbol "]"
    let elem ← rules.type
    pure fun span => .array span (some length) elem

def mapType (rules : Rules) : Parser (Span → TypeExpr) := do
  keyword "map"
  symbol "["
  let key ← rules.type
  symbol "]"
  let value ← rules.type
  pure fun span => .map span key value

def chanType (rules : Rules) : Parser (Span → TypeExpr) := do
  if ← accept "<-" then
    keyword "chan"
    let elem ← rules.type
    pure fun span => .chan span .recv elem
  else
    keyword "chan"
    let dir := if ← accepts (symbol "<-") then ChanDir.send else ChanDir.both
    let elem ← rules.type
    pure fun span => .chan span dir elem

def funcType (rules : Rules) : Parser (Span → TypeExpr) := do
  keyword "func"
  let signature ← signature rules
  pure fun span => .func span signature

def structType (rules : Rules) : Parser (Span → TypeExpr) := do
  keyword "struct"
  symbol "\x7b"
  let fields ← itemsUntil rules "\x7d" (context "struct field" (structField rules))
  pure fun span => .struct span fields

def interfaceType (rules : Rules) : Parser (Span → TypeExpr) := do
  keyword "interface"
  symbol "\x7b"
  let elements ←
    itemsUntil rules "\x7d" (context "interface element" (interfaceElement rules))
  pure fun span => .interface span elements

def parenType (rules : Rules) : Parser (Span → TypeExpr) := do
  tag "("
  let inner ← rules.type
  symbol ")"
  pure fun span => inner.withSpan span

def ellipsisType (rules : Rules) : Parser (Span → TypeExpr) := do
  tag "..."
  let elem ← rules.type
  pure fun span => .ellipsis span elem

def namedType : Parser (Span → TypeExpr) := do
  let first ← identifier
  if ← accepts (lineSymbol ".") then
    let name ← identifier
    pure fun span => .qualified span first name
  else
    pure fun span => .name span first

/-- A type that starts exactly here.  Parentheses only widen the range. -/
def typeHere (rules : Rules) : Parser TypeExpr := do
  let start ← here
  let build ← pointerType rules <|> arrayOrSliceType rules <|> mapType rules <|> chanType rules
    <|> funcType rules <|> structType rules <|> interfaceType rules <|> parenType rules
    <|> ellipsisType rules <|> namedType
  let span ← spanFrom start
  pure (build span)

def typeExpr (rules : Rules) : Parser TypeExpr := do
  blanks
  typeHere rules

end Unclosed.Grammar
