import Unclosed.Diagnostic.Report
import Unclosed.Grammar.Source
import Unclosed.Text.Whitespace

/-!
Parsing a whole file, and the error when that fails.
-/

namespace Unclosed

/-- Where and why a file could not be parsed; constructs innermost first. -/
structure SyntaxError where
  file : String
  message : String
  offset : Nat
  contexts : List (Nat × String)
deriving DecidableEq, Repr

namespace SyntaxError

/-- What was found in place of something readable: the next word, at most 16
characters of it. -/
def describe (rest : List Char) : String :=
  match rest.dropWhile Text.isWhitespace with
  | [] => "end of file"
  | characters =>
    "'" ++ String.ofList ((characters.takeWhile (!Text.isWhitespace ·)).take 16) ++ "'"

def ofFault (file : String) (fault : Grammar.Fault) : SyntaxError where
  file := file
  message := fault.message.getD ("unexpected " ++ describe fault.position.rest)
  offset := fault.position.offset
  contexts := fault.contexts

def construct? (error : SyntaxError) : Option String := error.contexts.head?.map Prod.snd

def text (error : SyntaxError) : String :=
  let construct :=
    match error.construct? with
    | some label => " (in " ++ label ++ ")"
    | none => ""
  error.file ++ ": offset " ++ toString error.offset ++ ": " ++ error.message ++ construct

def diagnostic (sources : SourceMap) (file : FileId) (error : SyntaxError) : Diagnostic :=
  Diagnostic.syntaxError (sources.region ⟨file, ⟨error.offset, error.offset + 1⟩⟩)
    error.message error.construct?

end SyntaxError

namespace Grammar

def parseFile (name text : String) : Except SyntaxError SyntaxFile :=
  let start := Cursor.ofText text
  match sourceFile (Rules.forText start) name start with
  | .done file _ => .ok file
  | .miss fault | .halt fault => .error (.ofFault name fault)

end Grammar

end Unclosed
