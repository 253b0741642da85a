import Unclosed.Grammar.Parser

/-!
Blanks and comments.  Line ends matter: `Blank.skip` crosses them, and
`Blank.skipInLine` stays on the current line.
-/

namespace Unclosed.Grammar

namespace Blank

def isSpace (character : Char) : Bool :=
  character == ' ' || character == '\t' || character == '\r' || character == '\n'

def isLineSpace (character : Char) : Bool :=
  character == ' ' || character == '\t' || character == '\r'

/-- Where a skipping scan stands.  An open block comment keeps its start, to
which the scan returns when the comment does not end. -/
inductive Mode where
  | between
  | lineComment
  | blockComment (start : Cursor)

def skipFrom : Mode → Nat → List Char → Cursor
  | .between, offset, '/' :: '/' :: rest => skipFrom .lineComment (offset + 2) rest
  | .between, offset, '/' :: '*' :: rest =>
    skipFrom (.blockComment ⟨offset, '/' :: '*' :: rest⟩) (offset + 2) rest
  | .between, offset, next :: rest =>
    if isSpace next then skipFrom .between (offset + 1) rest else ⟨offset, next :: rest⟩
  | .between, offset, [] => ⟨offset, []⟩
  | .lineComment, offset, next :: rest =>
    if next = '\n' then skipFrom .between (offset + 1) rest
    else skipFrom .lineComment (offset + next.utf8Size) rest
  | .lineComment, offset, [] => ⟨offset, []⟩
  | .blockComment _, offset, '*' :: '/' :: rest => skipFrom .between (offset + 2) rest
  | .blockComment start, offset, next :: rest =>
    skipFrom (.blockComment start) (offset + next.utf8Size) rest
  | .blockComment start, _, [] => start

def skip (cursor : Cursor) : Cursor := skipFrom .between cursor.offset cursor.rest

def skipInLineFrom : Option Cursor → Nat → List Char → Cursor
  | none, offset, '/' :: '*' :: rest =>
    skipInLineFrom (some ⟨offset, '/' :: '*' :: rest⟩) (offset + 2) rest
  | none, offset, next :: rest =>
    if isLineSpace next then skipInLineFrom none (offset + 1) rest else ⟨offset, next :: rest⟩
  | none, offset, [] => ⟨offset, []⟩
  | some _, offset, '*' :: '/' :: rest => skipInLineFrom none (offset + 2) rest
  | some start, offset, next :: rest =>
    if next = '\n' then start
    else skipInLineFrom (some start) (offset + next.utf8Size) rest
  | some start, _, [] => start

/-- Skip blanks and one-line block comments without crossing a line end. -/
def skipInLine (cursor : Cursor) : Cursor := skipInLineFrom none cursor.offset cursor.rest

def skipLine (cursor : Cursor) : Cursor := cursor.skipWhile (· ≠ '\n')

def blockEndFrom : Bool → Nat → List Char → Option (Bool × Cursor)
  | crossed, offset, '*' :: '/' :: rest => some (crossed, ⟨offset + 2, rest⟩)
  | crossed, offset, next :: rest =>
    blockEndFrom (crossed || next == '\n') (offset + next.utf8Size) rest
  | _, _, [] => none

/-- The end of the block comment that is open here, and whether it crosses a
line end. -/
def blockEnd? (cursor : Cursor) : Option (Bool × Cursor) :=
  blockEndFrom false cursor.offset cursor.rest

end Blank

namespace Parser

def blanks : Parser Unit := skip Blank.skip

def lineBlanks : Parser Unit := skip Blank.skipInLine

end Parser

/-- Nothing but a line end, a semicolon, a line comment or a closing brace
follows. -/
def Cursor.atLineEnd (cursor : Cursor) : Bool :=
  match cursor.rest with
  | [] | '\n' :: _ | ';' :: _ | '/' :: '/' :: _ | '}' :: _ => true
  | _ => false

/-- The end of a statement: a semicolon, a line end, a comment that reaches or
crosses one, or a closing bracket, which is left to its construct. -/
def statementEnd : Parser Unit := fun cursor =>
  let start := Blank.skipInLine cursor
  match start.rest with
  | [] | '}' :: _ | ')' :: _ => .done () start
  | ';' :: rest => .done () ⟨start.offset + 1, rest⟩
  | '\n' :: rest => .done () ⟨start.offset + 1, rest⟩
  | '/' :: '/' :: _ => .done () (Blank.skipLine start)
  | '/' :: '*' :: rest =>
    match Blank.blockEnd? ⟨start.offset + 2, rest⟩ with
    | some (true, after) => .done () after
    | some (false, _) => .miss (.saying "expected end of statement" start)
    | none => .miss (.silent ⟨start.offset + 2, rest⟩)
  | _ => .miss (.saying "expected end of statement" start)

end Unclosed.Grammar
