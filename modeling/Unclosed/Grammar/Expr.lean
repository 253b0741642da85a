import Unclosed.Grammar.TypeExpr

/-!
Expressions.  Binary operators and the operations after an operand continue an
expression only on the current line.  In the header of a conditional, a loop or
a switch a brace after a name opens the body and not a literal.
-/

namespace Unclosed.Grammar

open Grammar.Parser

/-! ### Arguments, indexes and composite literals -/

def argumentTurn (rules : Rules) : Parser (Turn (Expr × Bool)) := do
  blanks
  if ← accept ")" then
    pure .stop
  else
    let argument ← rules.expression
    blanks
    let dots ← accept "..."
    blanks
    if ← accept "," then
      pure (.more (argument, dots))
    else
      tag ")"
      pure (.last (argument, dots))

def argumentList (rules : Rules) : Parser (List (Expr × Bool)) :=
  collect (argumentTurn rules) rules.bound

def sliceBound (rules : Rules) : Parser (Option Expr) := do
  blanks
  let cursor ← here
  match cursor.rest with
  | ']' :: _ | ':' :: _ => pure none
  | _ => do
    let bound ← rules.expression
    pure (some bound)

def indexOrSlice (rules : Rules) (operand : Expr) : Parser (Span → Expr) := do
  blanks
  let low ← if ← nextIs ":" then pure none else some <$> rules.expression
  blanks
  if ← nextIs "]" then
    match low with
    | some index => do
      tag "]"
      pure fun span => .index span operand index
    | none => failSaying "expected index"
  else
    tag ":"
    let high ← sliceBound rules
    let max ← if ← accepts (symbol ":") then sliceBound rules else pure none
    symbol "]"
    pure fun span => .slice span operand low high max

def elementTurn (rules : Rules) : Parser (Turn Expr) := do
  blanks
  if ← accept "\x7d" then
    pure .stop
  else
    let key ← rules.element
    let element ←
      if ← accepts (symbol ":") then do
        let value ← rules.element
        pure (Expr.keyValue (key.span.merge value.span) key value)
      else
        pure key
    blanks
    if ← accept "," then
      pure (.more element)
    else
      tag "\x7d"
      pure (.last element)

def literalValue (rules : Rules) : Parser (List Expr) := do
  tag "\x7b"
  collect (elementTurn rules) rules.bound

def opensLiteral (allowed : Bool) : Expr → Bool
  | .ident _ | .selector _ _ _ | .index _ _ _ => allowed
  | .type (.array _ _ _) | .type (.slice _ _) | .type (.map _ _ _) | .type (.struct _ _) => true
  | _ => false

/-! ### Operands -/

def functionLiteral (rules : Rules) : Parser Expr := do
  let start ← here
  keyword "func"
  let signature ← signature rules
  let afterSignature ← here
  lineBlanks
  if ← nextIs "\x7b" then
    let body ← context "function literal body" rules.block
    let span ← spanFrom start
    pure (.function span signature body)
  else
    resume afterSignature
    let span ← spanFrom start
    pure (.type (.func span signature))

def seesTypeLiteral : Parser Bool := do
  if ← nextIs "[" then pure true
  else if ← sees (keyword "map") then pure true
  else if ← sees (keyword "struct") then pure true
  else if ← sees (keyword "chan") then pure true
  else if ← sees (keyword "interface") then pure true
  else nextIs "<-"

def expectingExpression {α : Type} (place : Cursor) (parser : Parser α) : Parser α := fun cursor =>
  match parser cursor with
  | .miss _ => .miss (.saying "expected expression" place)
  | reply => reply

def operand (rules : Rules) : Parser Expr := do
  blanks
  let start ← here
  if ← accept "(" then
    let inner ← rules.expression
    symbol ")"
    let span ← spanFrom start
    pure (.paren span inner)
  else if ← sees (keyword "func") then
    functionLiteral rules
  else if ← seesTypeLiteral then
    let type ← typeHere rules
    pure (.type type)
  else
    expectingExpression start (basicLiteral <|> Expr.ident <$> identifier)

/-! ### Operations after an operand -/

def selection (rules : Rules) (expr : Expr) : Parser (Span → Expr) := do
  blanks
  if ← accept "(" then
    if ← accepts (keyword "type") then
      symbol ")"
      pure fun span => .typeAssert span expr none
    else
      let type ← rules.type
      symbol ")"
      pure fun span => .typeAssert span expr (some type)
  else
    let name ← identifier
    pure fun span => .selector span expr name

def operation (rules : Rules) (literals : Bool) (expr : Expr) :
    Parser (Option (Span → Expr)) := do
  let before ← here
  lineBlanks
  let cursor ← here
  match cursor.rest with
  | '.' :: '.' :: _ => do
    resume before
    pure none
  | '.' :: _ => do
    tag "."
    some <$> selection rules expr
  | '(' :: _ => do
    tag "("
    let arguments ← context "call arguments" (argumentList rules)
    pure (some fun span =>
      .call span expr (arguments.map Prod.fst) (arguments.any Prod.snd))
  | '[' :: _ => do
    tag "["
    some <$> indexOrSlice rules expr
  | '{' :: _ =>
    if opensLiteral literals expr then do
      let elements ← context "composite literal" (literalValue rules)
      pure (some fun span => .composite span (some expr) elements)
    else do
      resume before
      pure none
  | _ => do
    resume before
    pure none

def operationStep (rules : Rules) (literals : Bool) (start : Cursor) (expr : Expr) :
    Parser (Option Expr) := do
  match ← operation rules literals expr with
  | some build => do
    let span ← spanFrom start
    pure (some (build span))
  | none => pure none

def postfixExpr (rules : Rules) (literals : Bool) : Parser Expr := do
  let start ← here
  let first ← operand rules
  iterate (operationStep rules literals start) rules.bound first

/-! ### Operators -/

def signOperator? (cursor : Cursor) : Option UnaryOp :=
  match cursor.rest with
  | '+' :: _ => some .plus
  | '-' :: _ => some .neg
  | '!' :: _ => some .not
  | '^' :: _ => some .bitNot
  | '&' :: '&' :: _ => none
  | '&' :: _ => some .addr
  | _ => none

def operatorOperand (rules : Rules) (literals : Bool) (start : Cursor)
    (build : Span → Expr → Expr) : Parser Expr := do
  let operand ← rules.unary literals
  pure (build ⟨start.offset, operand.span.stop⟩ operand)

/-- Whether a receiving arrow stands here.  An arrow before the keyword of a
channel type belongs to that type. -/
def seesReceive : Parser Bool := fun cursor =>
  match cursor.after? "<-" with
  | some rest => .done (!(keyword "chan" rest).isDone) cursor
  | none => .done false cursor

def unaryExpr (rules : Rules) (literals : Bool) : Parser Expr := do
  blanks
  let start ← here
  if ← seesReceive then
    tag "<-"
    operatorOperand rules literals start fun span operand => .unary span .recv operand
  else if ← accept "*" then
    operatorOperand rules literals start fun span operand => .star span operand
  else
    match signOperator? start with
    | some op => do
      satisfy fun _ => true
      operatorOperand rules literals start fun span operand => .unary span op operand
    | none => postfixExpr rules literals

/-- Whether the text after an operator's spelling makes it part of something
else: a compound assignment, a comment, an increment or an arrow. -/
def continuesOperator (spelling : String) (op : BinaryOp) (rest : List Char) : Bool :=
  match rest with
  | '=' :: _ => !op.isComparison && !op.isLogical
  | '/' :: _ | '*' :: _ => spelling == "/"
  | '+' :: _ => spelling == "+"
  | '-' :: _ => spelling == "-" || spelling == "<"
  | _ => false

def binaryOperatorIn : List (String × BinaryOp) → Cursor → Option (BinaryOp × Cursor)
  | [], _ => none
  | (spelling, op) :: others, cursor =>
    match cursor.after? spelling with
    | some rest => if continuesOperator spelling op rest.rest then none else some (op, rest)
    | none => binaryOperatorIn others cursor

def binaryOperator? (cursor : Cursor) : Option (BinaryOp × Cursor) :=
  binaryOperatorIn BinaryOp.spellings (Blank.skipInLine cursor)

def operatorStep (rules : Rules) (literals : Bool) (least : Nat) (left : Expr) :
    Parser (Option Expr) := do
  match binaryOperator? (← here) with
  | some (op, rest) =>
    if op.precedence < least then
      pure none
    else do
      resume rest
      let right ← rules.binary literals (op.precedence + 1)
      pure (some (.binary (left.span.merge right.span) op left right))
  | none => pure none

/-- An expression whose operators bind at least as tightly as `least`. -/
def binaryExpr (rules : Rules) (literals : Bool) (least : Nat) : Parser Expr := do
  let first ← unaryExpr rules literals
  iterate (operatorStep rules literals least) rules.bound first

def expressionWith (rules : Rules) (literals : Bool) : Parser Expr :=
  binaryExpr rules literals 1

def expression (rules : Rules) : Parser Expr := expressionWith rules true

def headerExpression (rules : Rules) : Parser Expr := expressionWith rules false

def expressionListWith (rules : Rules) (literals : Bool) : Parser (List Expr) :=
  separated rules.bound (symbol ",") (expressionWith rules literals)

def expressionList (rules : Rules) : Parser (List Expr) := expressionListWith rules true

/-- An element of a composite literal: an expression or a nested literal
without its type. -/
def literalElement (rules : Rules) : Parser Expr := do
  blanks
  let start ← here
  if ← nextIs "\x7b" then
    let elements ← literalValue rules
    let span ← spanFrom start
    pure (.composite span none elements)
  else
    expression rules

end Unclosed.Grammar
