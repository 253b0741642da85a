import Unclosed.Grammar.Stmt
import Unclosed.Syntax.File

/-!
Whole source files, and the rules tied together.  A text of `n` characters
nests less than `n + 1` constructs, so rules of that depth read all of it.
-/

namespace Unclosed.Grammar

open Grammar.Parser

/-! ### Tying the rules together -/

def Rules.none : Rules where
  bound := 0
  typeHere := fail
  binary _ _ := fail
  unary _ := fail
  element := fail
  block := fail
  statement := fail
  conditional := fail

/-- Rules for one level of nesting more. -/
def Rules.deepen (rules : Rules) : Rules where
  bound := rules.bound + 1
  typeHere := Grammar.typeHere rules
  binary literals least := binaryExpr rules literals least
  unary literals := unaryExpr rules literals
  element := literalElement rules
  block := Grammar.block rules
  statement := Grammar.statement rules
  conditional := Grammar.conditional rules

def Rules.ofDepth (depth : Nat) : Rules := depth.repeat Rules.deepen Rules.none

/-- Rules that are deep enough for a text. -/
def Rules.forText (cursor : Cursor) : Rules := Rules.ofDepth (cursor.rest.length + 2)

/-! ### Functions and imports -/

def receiverList (rules : Rules) : Parser (List Field) := do
  symbol "("
  let entries ← fieldEntries rules
  symbol ")"
  pure (groupParams entries)

def funcDecl (rules : Rules) : Parser FuncDecl := do
  blanks
  let start ← here
  keyword "func"
  let receivers ← optional (receiverList rules)
  let name ← context "function name" identifier
  let signature ← context "function signature" (signature rules)
  lineBlanks
  let body ←
    if ← nextIs "\x7b" then some <$> context "function body" (block rules) else pure none
  let span ← spanFrom start
  pure ⟨receivers.bind List.getLast?, name, signature, body, span⟩

def topLevelDecl (rules : Rules) : Parser TopLevel :=
  TopLevel.func <$> funcDecl rules <|> TopLevel.decl <$> declaration rules

def dotRename : Parser Ident := do
  blanks
  let start ← here
  tag "."
  pure ⟨".", ⟨start.offset, start.offset + 1⟩⟩

def importSpec : Parser ImportSpec := do
  blanks
  let start ← here
  let rename ← optional (identifier <|> dotRename)
  let path ← context "import path" stringLiteral
  let span ← spanFrom start
  match path with
  | .literal _ _ text => pure ⟨rename, unquote text, span⟩
  | _ => pure ⟨rename, "", span⟩

def importDecl (rules : Rules) : Parser (List ImportSpec) := do
  keyword "import"
  grouped rules importSpec

def importTurn (rules : Rules) : Parser (Turn (List ImportSpec)) := do
  let before ← here
  blanks
  if ← sees (keyword "import") then
    let specs ← context "import declaration" (importDecl rules)
    statementEnd
    pure (.more specs)
  else
    resume before
    pure .stop

def imports (rules : Rules) : Parser (List ImportSpec) := do
  let groups ← collect (importTurn rules) rules.bound
  pure groups.flatten

def topLevelTurn (rules : Rules) : Parser (Turn TopLevel) := do
  blanks
  if (← here).atEnd then
    pure .stop
  else
    let decl ← topLevelDecl rules
    statementEnd
    pure (.more decl)

def topLevelDecls (rules : Rules) : Parser (List TopLevel) :=
  collect (topLevelTurn rules) rules.bound

def sourceFile (rules : Rules) (name : String) : Parser SyntaxFile := do
  blanks
  let start ← here
  context "package clause" (keyword "package")
  let package ← identifier
  statementEnd
  let imports ← imports rules
  let decls ← topLevelDecls rules
  let span ← spanFrom start
  pure ⟨name, package, imports, decls, span⟩

end Unclosed.Grammar
