import Unclosed.Grammar.Expr

/-!
Variable, constant and type declarations, which stand at top level and in
bodies.
-/

namespace Unclosed.Grammar

open Grammar.Parser

def grouped {α : Type} (rules : Rules) (spec : Parser α) : Parser (List α) := fun cursor =>
  let start := Blank.skip cursor
  match start.after? "(" with
  | some inside => itemsUntil rules ")" spec inside
  | none => (do let item ← spec; pure [item] : Parser (List α)) cursor

/-- Whether a value spec goes on without a type. -/
def endsSpecNames (cursor : Cursor) : Bool :=
  cursor.startsWith "=" || cursor.atLineEnd || cursor.startsWith ")"

def valueSpec (rules : Rules) : Parser ValueSpec := do
  blanks
  let start ← here
  let names ← separated rules.bound (symbol ",") identifier
  lineBlanks
  let type ← if endsSpecNames (← here) then pure none else some <$> typeHere rules
  let values ← if ← accepts (lineSymbol "=") then expressionList rules else pure []
  let span ← spanFrom start
  pure (.mk names type values 0 span)

def typeSpec (rules : Rules) : Parser TypeSpec := do
  blanks
  let start ← here
  let name ← identifier
  let isAlias ← accepts (lineSymbol "=")
  let type ← context "type" (typeExpr rules)
  let span ← spanFrom start
  pure (.mk name isAlias type span)

def numberSpecs : Nat → List ValueSpec → List ValueSpec
  | _, [] => []
  | position, spec :: later => spec.withPosition position :: numberSpecs (position + 1) later

def varDecl (rules : Rules) : Parser Decl := do
  keyword "var"
  let specs ← context "var declaration" (grouped rules (valueSpec rules))
  pure (.var specs)

def constDecl (rules : Rules) : Parser Decl := do
  keyword "const"
  let specs ← context "const declaration" (grouped rules (valueSpec rules))
  pure (.const (numberSpecs 0 specs))

def typeDecl (rules : Rules) : Parser Decl := do
  keyword "type"
  let specs ← context "type declaration" (grouped rules (typeSpec rules))
  pure (.type specs)

def declaration (rules : Rules) : Parser Decl :=
  varDecl rules <|> constDecl rules <|> typeDecl rules

end Unclosed.Grammar
