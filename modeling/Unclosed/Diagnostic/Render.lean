import Unclosed.Diagnostic.Basic
import Unclosed.Text.Alphabetic
import Unclosed.Text.Numeric

/-!
Diagnostics as text, with the source line and an underline, plain or with
terminal colors.
-/

namespace Unclosed

inductive Color where
  | red | yellow | cyan | green | blue | gutter | bold

def Color.code : Color → String
  | red => "\x1b[31m"
  | yellow => "\x1b[33m"
  | cyan => "\x1b[36m"
  | green => "\x1b[32m"
  | blue => "\x1b[34m"
  | gutter => "\x1b[96m"
  | bold => "\x1b[1;97m"

def Severity.color : Severity → Color
  | error => .red
  | warning => .yellow
  | info => .cyan
  | hint => .green

namespace Diagnostic

def paint (colors : Bool) (color : Color) (text : String) : String :=
  if colors then color.code ++ text ++ "\x1b[0m" else text

def spaces (count : Nat) : String := String.ofList (List.replicate count ' ')

/-- The characters after the given number of bytes, if a character starts
there. -/
def dropBytes? : List Char → Nat → Option (List Char)
  | characters, 0 => some characters
  | [], _ + 1 => none
  | next :: rest, count + 1 =>
    if next.utf8Size ≤ count + 1 then dropBytes? rest (count + 1 - next.utf8Size) else none

/-- The width of the underline: the region's part of its first line, or the
word at a region of at most one byte. -/
def underlineLength (region : Region) (line : String) : Nat :=
  let before := region.start.column - 1
  let covered :=
    if region.start.line = region.stop.line then region.stop.column - region.start.column
    else line.utf8ByteSize - before
  if covered > 1 then covered
  else
    let word :=
      match dropBytes? line.toList before with
      | some rest =>
        (rest.takeWhile fun next =>
          Text.isAlphabetic next || Text.isNumeric next || next == '_').length
      | none => 0
    max (max word covered) 1

def header (colors : Bool) (diagnostic : Diagnostic) : String :=
  let code :=
    match diagnostic.code with
    | some code => "[" ++ code ++ "]"
    | none => ""
  paint colors diagnostic.severity.color (diagnostic.severity.text ++ code) ++ ": "
    ++ paint colors .bold diagnostic.message ++ "\n"

def placeLine (colors : Bool) (file : SourceFile) (position : Position) : String :=
  "  " ++ paint colors .gutter "-->" ++ " " ++ file.name ++ ":" ++ toString position.line ++ ":"
    ++ toString position.column

def primaryLabel (colors : Bool) (diagnostic : Diagnostic) : String :=
  match diagnostic.labels.find? (·.style == .primary) with
  | some label => " " ++ paint colors diagnostic.severity.color label.message
  | none => ""

def snippet (colors : Bool) (file : SourceFile) (diagnostic : Diagnostic) : String :=
  let region := diagnostic.region
  let number := toString region.start.line
  let margin := spaces number.length
  let bar := paint colors .gutter "|"
  let opening := placeLine colors file region.start ++ "\n" ++ margin ++ " " ++ bar ++ "\n"
  match file.line? region.start.line with
  | none => opening
  | some line =>
    let carets := String.ofList (List.replicate (underlineLength region line) '^')
    opening ++ paint colors .gutter number ++ " " ++ bar ++ " " ++ line ++ "\n"
      ++ margin ++ " " ++ bar ++ " " ++ spaces (region.start.column - 1)
      ++ paint colors diagnostic.severity.color carets ++ primaryLabel colors diagnostic ++ "\n"

def secondaryLines (colors : Bool) (sources : SourceMap) (diagnostic : Diagnostic) : String :=
  String.join (diagnostic.labels.map fun label =>
    match label.style, sources.file? label.region.file with
    | .secondary, some file =>
      placeLine colors file label.region.start ++ ": " ++ label.message ++ "\n"
    | _, _ => "")

def render (colors : Bool) (sources : SourceMap) (diagnostic : Diagnostic) : String :=
  let shown :=
    match sources.file? diagnostic.region.file with
    | some file => snippet colors file diagnostic
    | none => ""
  let help := diagnostic.help.map fun text =>
    "     " ++ paint colors .green "help" ++ ": " ++ text ++ "\n"
  let notes := diagnostic.notes.map fun text => paint colors .blue "note" ++ ": " ++ text ++ "\n"
  header colors diagnostic ++ shown ++ secondaryLines colors sources diagnostic
    ++ String.join help ++ String.join notes

def renderAll (colors : Bool) (sources : SourceMap) (diagnostics : List Diagnostic) : String :=
  "\n".intercalate (diagnostics.map (render colors sources))

end Diagnostic

end Unclosed
