import Unclosed.Grammar.Literal

/-!
The recursive rules of the grammar.  Each production is an ordinary function of
the rules for what it nests; a production consults them only after it has read
something, so that rules good for shorter texts are enough.
-/

namespace Unclosed.Grammar

/-- Parsers for the nested constructs, good for texts shorter than `bound`. -/
structure Rules where
  /-- More turns than any repetition can take. -/
  bound : Nat
  /-- A type that starts exactly here. -/
  typeHere : Parser TypeExpr
  /-- An expression of operators that bind at least as tightly as given.  The
  flag tells whether a brace after a name opens a literal. -/
  binary : Bool → Nat → Parser Expr
  unary : Bool → Parser Expr
  element : Parser Expr
  block : Parser Block
  statement : Parser Stmt
  conditional : Parser Stmt

namespace Rules

def type (rules : Rules) : Parser TypeExpr := do
  Parser.blanks
  rules.typeHere

def expression (rules : Rules) : Parser Expr := rules.binary true 1

end Rules

end Unclosed.Grammar
