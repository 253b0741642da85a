import Unclosed.Grammar.Blank
import Unclosed.Text.Alphabetic
import Unclosed.Text.Numeric

/-!
Words and symbols: keywords, identifiers and punctuation.
-/

namespace Unclosed.Grammar

def keywords : List String :=
  ["break", "case", "chan", "const", "continue", "default", "defer", "else", "fallthrough",
   "for", "func", "go", "goto", "if", "import", "interface", "map", "package", "range",
   "return", "select", "struct", "switch", "type", "var"]

def isKeyword (word : String) : Bool := keywords.contains word

def isIdentStart (character : Char) : Bool := Text.isAlphabetic character || character == '_'

def isIdentChar (character : Char) : Bool :=
  Text.isAlphabetic character || Text.isNumeric character || character == '_'

namespace Parser

/-- A keyword after blanks; no identifier character may follow it. -/
def keyword (word : String) : Parser Unit := do
  blanks
  tag word
  if ← sees (satisfy isIdentChar) then fail else pure ()

def identifier : Parser Ident := do
  blanks
  let start ← here
  let (name, span) ← recognize (do satisfy isIdentStart; takeWhile isIdentChar)
  if isKeyword name then
    resume start
    fail
  else
    pure ⟨name, span⟩

def symbol (spelling : String) : Parser Unit := do
  blanks
  tag spelling

def lineSymbol (spelling : String) : Parser Unit := do
  lineBlanks
  tag spelling

def sendArrow : Parser Unit := do
  lineSymbol "<"
  tag "-"

def spanFrom (start : Cursor) : Parser Span := do
  let stop ← here
  pure ⟨start.offset, stop.offset⟩

def nextIs (spelling : String) : Parser Bool := fun cursor =>
  .done (cursor.startsWith spelling) cursor

def accept (spelling : String) : Parser Bool := fun cursor =>
  match cursor.after? spelling with
  | some rest => .done true rest
  | none => .done false cursor

/-- Read a parser's text if it succeeds; any failure leaves the place. -/
def accepts (parser : Parser Unit) : Parser Bool := do
  pure (← probe parser).isSome

end Parser

end Unclosed.Grammar
