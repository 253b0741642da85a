/-!
Texts as a terminal shows them, without the sequences that control it.
-/

namespace Unclosed.Terminal

/-- What the next character of a text belongs to. -/
inductive State where
  | text
  /-- Behind an escape character. -/
  | escape
  /-- An escape sequence of several characters. -/
  | longEscape
  /-- A control sequence, which ends with a letter or a sign like one. -/
  | control
  /-- The head of a device control string. -/
  | device
  /-- A string up to the string terminator. -/
  | string
  /-- A system command up to the bell. -/
  | command
deriving DecidableEq, Repr

/-- The byte that ends a string, also inside of a longer character. -/
def stringTerminator : UInt8 := 0x9c

def State.afterEscape (character : Char) : State :=
  if character = '[' then control
  else if character = ']' then command
  else if character = 'P' then device
  else if character ∈ ['X', '^', '_'] then string
  else if ' ' ≤ character ∧ character ≤ '/' then longEscape
  else if '0' ≤ character ∧ character ≤ '~' then text
  else escape

/-- The state behind a character that is not shown.  An escape character begins a
new sequence, and the characters `cancel` and `substitute` end any. -/
def State.next (state : State) (character : Char) : State :=
  if character = '\x1b' then escape
  else if character = '\x18' ∨ character = '\x1a' then text
  else
    match state with
    | text => text
    | escape => afterEscape character
    | longEscape => if '0' ≤ character ∧ character ≤ '~' then text else longEscape
    | control => if '@' ≤ character ∧ character ≤ '~' then text else control
    | device => if '@' ≤ character ∧ character ≤ '~' then string else device
    | string =>
      if (String.singleton character).toUTF8.toList.contains stringTerminator then text else string
    | command => if character = '\x07' then text else command

def isBlankControl (character : Char) : Bool :=
  character == '\t' || character == '\n' || character == '\x0c' || character == '\r'

def State.shows : State → Char → Bool
  | text, character => isBlankControl character || (' ' ≤ character && character != '\x7f')
  | escape, character | longEscape, character | control, character => isBlankControl character
  | device, _ | string, _ | command, _ => false

/-- What is shown of a text.  A blank suspends the sequence that it stands in: what
follows is shown, and the next control character resumes the sequence unless a
character outside of ASCII came before. -/
def shown : Bool → State → List Char → List Char
  | _, _, [] => []
  | showing, state, character :: rest =>
    if (if showing then State.text else state).shows character then
      character :: shown true (if character.toNat < 128 then state else .text) rest
    else shown false (state.next character) rest

def plain (text : String) : String := String.ofList (shown false .text text.toList)

end Unclosed.Terminal
