import Unclosed.Grammar.Token
import Unclosed.Syntax.Tree

/-!
Literals keep their source text.  `unquote` gives the text that a string
literal denotes.
-/

namespace Unclosed.Grammar

/-- The end of an interpreted string's body: before its closing quote or line
end.  There is none when the text ends in an unfinished escape. -/
def quotedBodyFrom : Nat → List Char → Option Cursor
  | offset, [] => some ⟨offset, []⟩
  | _, ['\\'] => none
  | offset, '\\' :: escaped :: rest => quotedBodyFrom (offset + 1 + escaped.utf8Size) rest
  | offset, next :: rest =>
    if next = '"' || next = '\n' then some ⟨offset, next :: rest⟩
    else quotedBodyFrom (offset + next.utf8Size) rest

/-- Skip the body of an interpreted string; an unfinished escape leaves all of
it unread. -/
def skipQuotedBody (cursor : Cursor) : Cursor :=
  (quotedBodyFrom cursor.offset cursor.rest).getD cursor

def isDecimalDigit (character : Char) : Bool := '0' ≤ character && character ≤ '9'

def isHexDigit (character : Char) : Bool :=
  isDecimalDigit character || ('a' ≤ character && character ≤ 'f')
    || ('A' ≤ character && character ≤ 'F')

def isDigitOrSeparator (character : Char) : Bool := isDecimalDigit character || character == '_'

/-- A number is a float when it has a point, an exponent or an imaginary mark
and is not hexadecimal. -/
def numberKind (text : String) : LiteralKind :=
  let characters := text.toList
  let marked := characters.any fun character =>
    character == '.' || character == 'e' || character == 'E' || character == 'i'
  match characters with
  | '0' :: 'x' :: _ | '0' :: 'X' :: _ => .int
  | _ => if marked then .float else .int

namespace Parser

def stringLiteral : Parser Expr := do
  blanks
  let (text, span) ← recognize (
    (do tag "\""; skip skipQuotedBody; tag "\"")
    <|> (do tag "`"; takeWhile (· ≠ '`'); tag "`"))
  pure (.literal span .string text)

def runeLiteral : Parser Expr := do
  let (text, span) ← recognize (do
    tag "'"
    (do tag "\\"; takeWhile1 (· ≠ '\''))
      <|> satisfy (fun next => next ≠ '\'' && next ≠ '\\' && next ≠ '\n')
    tag "'")
  pure (.literal span .char text)

def basedInteger : Parser Unit := do
  tag "0"
  satisfy ("xXoObB".toList.contains ·)
  takeWhile1 fun next => isHexDigit next || next == '_'

def decimalNumber : Parser Unit := do
  (do
    satisfy isDecimalDigit
    takeWhile isDigitOrSeparator
    let _ ← optional (do tag "."; takeWhile isDigitOrSeparator))
    <|> (do tag "."; takeWhile1 isDecimalDigit)
  let _ ← optional (do
    satisfy fun next => next == 'e' || next == 'E'
    let _ ← optional (satisfy fun next => next == '+' || next == '-')
    takeWhile1 isDecimalDigit)
  let _ ← optional (tag "i")

def numberLiteral : Parser Expr := do
  let (text, span) ← recognize (basedInteger <|> decimalNumber)
  pure (.literal span (numberKind text) text)

def basicLiteral : Parser Expr := stringLiteral <|> runeLiteral <|> numberLiteral

end Parser

/-- Resolve the escapes of an interpreted string.  An unknown escape stands for
itself. -/
def unescape : List Char → List Char
  | [] => []
  | '\\' :: 'n' :: rest => '\n' :: unescape rest
  | '\\' :: 't' :: rest => '\t' :: unescape rest
  | '\\' :: 'r' :: rest => '\r' :: unescape rest
  | '\\' :: '\\' :: rest => '\\' :: unescape rest
  | '\\' :: '"' :: rest => '"' :: unescape rest
  | '\\' :: '\'' :: rest => '\'' :: unescape rest
  | '\\' :: other :: rest => '\\' :: other :: unescape rest
  | next :: rest => next :: unescape rest

def dropLast? (wanted : Char) (characters : List Char) : Option (List Char) :=
  match characters.getLast? with
  | some last => if last = wanted then some characters.dropLast else none
  | none => none

def unquote (literal : String) : String :=
  match literal.toList with
  | '`' :: raw => String.ofList ((dropLast? '`' raw).getD raw)
  | '"' :: quoted =>
    match dropLast? '"' quoted with
    | some inner => String.ofList (unescape inner)
    | none => String.ofList (unescape ('"' :: quoted))
  | characters => String.ofList (unescape characters)

end Unclosed.Grammar
