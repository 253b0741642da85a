import Unclosed.Grammar.Decl

/-!
Statements and blocks.
-/

namespace Unclosed.Grammar

open Grammar.Parser

/-! ### Blocks -/

def endsStatements (cursor : Cursor) : Bool :=
  cursor.atEnd || cursor.startsWith "\x7d" || (keyword "case" cursor).isDone
    || (keyword "default" cursor).isDone

def statementTurn (rules : Rules) : Parser (Turn Stmt) := do
  blanks
  if endsStatements (← here) then
    pure .stop
  else if ← accept ";" then
    pure .pass
  else
    let stmt ← rules.statement
    statementEnd
    pure (.more stmt)

def statementList (rules : Rules) : Parser (List Stmt) :=
  collect (statementTurn rules) rules.bound

def block (rules : Rules) : Parser Block := do
  blanks
  let start ← here
  tag "\x7b"
  let stmts ← statementList rules
  context "closing brace" (symbol "\x7d")
  let span ← spanFrom start
  pure (.mk stmts span)

/-! ### Simple statements -/

/-- The assignment operator that comes next, if any.  A comparison is none. -/
def assignOperatorIn : List (String × AssignOp) → Cursor → Option (AssignOp × Cursor)
  | [], _ => none
  | (spelling, op) :: others, cursor =>
    match cursor.after? spelling with
    | some rest => if op = .assign && rest.startsWith "=" then none else some (op, rest)
    | none => assignOperatorIn others cursor

def assignOperator? (cursor : Cursor) : Option (AssignOp × Cursor) :=
  assignOperatorIn AssignOp.spellings cursor

def labeledStatement (rules : Rules) : Parser Stmt := do
  tag ":"
  blanks
  let start ← here
  if ← nextIs "\x7d" then
    pure (.empty ⟨start.offset, start.offset⟩)
  else
    rules.statement

/-- What a single expression becomes: an increment, a send, or itself. -/
def expressionStatement (rules : Rules) (literals : Bool) (afterExpr : Cursor) (expr : Expr) :
    Parser (Span → Stmt) := do
  if ← accept "++" then
    pure fun span => .incDec span expr true
  else if ← accept "--" then
    pure fun span => .incDec span expr false
  else if ← accepts sendArrow then
    let value ← expressionWith rules literals
    pure fun span => .send span expr value
  else
    resume afterExpr
    pure fun span => .expr span expr

/-- The label that an expression is, if a colon follows and labels may stand
here. -/
def label? (literals : Bool) (expr : Expr) (cursor : Cursor) : Option Ident :=
  match expr with
  | .ident name => if literals && cursor.startsWith ":" then some name else none
  | _ => none

/-- An expression, send, increment, assignment, short declaration or, outside
of headers, a labeled statement. -/
def simpleStatement (rules : Rules) (literals : Bool) : Parser Stmt := do
  blanks
  let start ← here
  let targets ← expressionListWith rules literals
  let afterTargets ← here
  lineBlanks
  match assignOperator? (← here) with
  | some (op, rest) => do
    resume rest
    let values ← context "assignment" (expressionListWith rules literals)
    let span ← spanFrom start
    pure (.assign span targets op values)
  | none =>
    match targets with
    | [expr] =>
      match label? literals expr (← here) with
      | some name => do
        let stmt ← labeledStatement rules
        let span ← spanFrom start
        pure (.labeled span name stmt)
      | none => do
        let build ← expressionStatement rules literals afterTargets expr
        let span ← spanFrom start
        pure (build span)
    | _ => failSaying "expected assignment after expression list"

/-! ### Compound statements -/

def alternative (rules : Rules) : Parser Stmt := do
  blanks
  if ← sees (keyword "if") then
    rules.conditional
  else
    let body ← context "else body" (block rules)
    pure (.block body)

def conditionalHeader (rules : Rules) : Parser (Option Stmt × Expr) := do
  let first ← simpleStatement rules false
  if ← accepts (symbol ";") then
    let condition ← headerExpression rules
    pure (some first, condition)
  else
    match first with
    | .expr _ condition => pure (none, condition)
    | _ => haltSaying "expected condition in if statement"

def conditional (rules : Rules) : Parser Stmt := do
  let start ← here
  keyword "if"
  let (init, condition) ← conditionalHeader rules
  let body ← context "if body" (block rules)
  let branch ← if ← accepts (keyword "else") then some <$> alternative rules else pure none
  let span ← spanFrom start
  pure (.conditional span init condition body branch)

def rangeClause (rules : Rules) : Parser (Span → Stmt) := do
  let targets ← expressionListWith rules false
  let define ← accepts (lineSymbol ":=")
  if define then pure () else lineSymbol "="
  keyword "range"
  let expr ← headerExpression rules
  let body ← block rules
  pure fun span => .range span targets[0]? targets[1]? define expr body

def loopClauses (rules : Rules) (init : Option Stmt) : Parser (Span → Stmt) := do
  blanks
  let condition ← if ← nextIs ";" then pure none else some <$> headerExpression rules
  symbol ";"
  let beforePost ← here
  blanks
  let post ←
    if ← nextIs "\x7b" then pure none
    else do
      resume beforePost
      some <$> simpleStatement rules false
  let body ← block rules
  pure fun span => .loop span init condition post body

def plainLoop (rules : Rules) : Parser (Span → Stmt) := do
  let init ← if ← nextIs ";" then pure none else some <$> simpleStatement rules false
  if ← accepts (symbol ";") then
    loopClauses rules init
  else
    match init with
    | some (.expr _ condition) => do
      let body ← block rules
      pure fun span => .loop span none (some condition) none body
    | _ => haltSaying "expected for loop condition"

def loop (rules : Rules) : Parser (Span → Stmt) := do
  blanks
  if ← nextIs "\x7b" then
    let body ← block rules
    pure fun span => .loop span none none none body
  else if ← accepts (keyword "range") then
    let expr ← headerExpression rules
    let body ← block rules
    pure fun span => .range span none none false expr body
  else
    match ← probe (rangeClause rules) with
    | some build => pure build
    | none => plainLoop rules

def clauseLabel (rules : Rules) : Parser (List Expr) := do
  let exprs ←
    if ← accepts (keyword "case") then
      expressionList rules
    else do
      keyword "default"
      pure []
  symbol ":"
  pure exprs

def clauseTurn (rules : Rules) : Parser (Turn CaseClause) := do
  blanks
  if ← accept "\x7d" then
    pure .stop
  else
    let start ← here
    let exprs ← clauseLabel rules
    let body ← statementList rules
    let span ← spanFrom start
    pure (.more (.mk exprs body span))

def clauses (rules : Rules) : Parser (List CaseClause) := do
  symbol "\x7b"
  collect (clauseTurn rules) rules.bound

def switchHeader (rules : Rules) : Parser (Option Stmt × Option Stmt) := do
  if ← nextIs "\x7b" then
    pure (none, none)
  else
    let first ← if ← nextIs ";" then pure none else some <$> simpleStatement rules false
    if ← accepts (symbol ";") then
      blanks
      if ← nextIs "\x7b" then
        pure (first, none)
      else
        let guard ← simpleStatement rules false
        pure (first, some guard)
    else
      pure (none, first)

/-- The switch that a guard makes, or nothing when it is no guard. -/
def switchOf (init guard : Option Stmt) (clauses : List CaseClause) : Option (Span → Stmt) :=
  match guard with
  | none => some fun span => .switch span init none clauses
  | some (.expr _ expr) =>
    if expr.isTypeGuard then some fun span => .typeSwitch span init none expr clauses
    else some fun span => .switch span init (some expr) clauses
  | some (.assign _ [target] .define [expr]) =>
    if expr.isTypeGuard then
      let binding :=
        match target with
        | .ident name => some name
        | _ => none
      some fun span => .typeSwitch span init binding expr clauses
    else none
  | some _ => none

def switch (rules : Rules) : Parser (Span → Stmt) := do
  blanks
  let (init, guard) ← switchHeader rules
  let clauses ← context "switch body" (clauses rules)
  match switchOf init guard clauses with
  | some build => pure build
  | none => haltSaying "unsupported switch guard"

/-! ### Statements -/

def returnStatement (rules : Rules) : Parser (Span → Stmt) := do
  lineBlanks
  if (← here).atLineEnd then
    pure fun span => .returns span []
  else
    let results ← expressionList rules
    pure fun span => .returns span results

def branchWords : List (String × BranchKind) :=
  [("break", .break), ("continue", .continue), ("goto", .goto), ("fallthrough", .fallthrough)]

def branchLabel (kind : BranchKind) : Parser (Option Ident) := do
  let afterWord ← here
  lineBlanks
  if kind = .fallthrough || (← here).atLineEnd then
    resume afterWord
    pure none
  else
    some <$> identifier

def branchIn : List (String × BranchKind) → Parser (Span → Stmt)
  | [] => failSaying "expected branch statement"
  | (word, kind) :: others => do
    if ← accepts (keyword word) then
      let label ← branchLabel kind
      pure fun span => .branch span kind label
    else
      branchIn others

def keywordStatement (rules : Rules) : Parser (Option (Span → Stmt)) := do
  if ← accepts (keyword "return") then
    some <$> returnStatement rules
  else if ← accepts (keyword "defer") then
    let call ← context "defer statement" (expression rules)
    pure (some fun span => .defer span call)
  else if ← accepts (keyword "go") then
    let call ← context "go statement" (expression rules)
    pure (some fun span => .go span call)
  else if ← accepts (keyword "for") then
    some <$> context "for statement" (loop rules)
  else if ← accepts (keyword "switch") then
    some <$> context "switch statement" (switch rules)
  else if ← sees (declarationWord) then
    let decl ← declaration rules
    pure (some fun span => .decl span decl)
  else
    probe (branchIn branchWords)
where
  declarationWord : Parser Unit := keyword "var" <|> keyword "const" <|> keyword "type"

def statement (rules : Rules) : Parser Stmt := do
  blanks
  let start ← here
  if ← sees (keyword "if") then
    context "if statement" (conditional rules)
  else
    match ← keywordStatement rules with
    | some build => do
      let span ← spanFrom start
      pure (build span)
    | none =>
      if ← nextIs "\x7b" then do
        let body ← block rules
        pure (.block body)
      else
        simpleStatement rules true

end Unclosed.Grammar
