import Unclosed.Command.Error
import Unclosed.Command.Request

/-!
Reading the command line.  Values are looked at when the next argument that is
known begins, so that an unknown argument right behind a bad value is refused
first.
-/

namespace Unclosed

/-! ### Words -/

inductive Word where
  /-- From here on no word is an option. -/
  | separator
  | long (name : String) (value : Option String)
  | short (letters : List Char)
  | plain
deriving DecidableEq, Repr

def splitValue (characters : List Char) : String × Option String :=
  let name := String.ofList (characters.takeWhile (· != '='))
  match characters.dropWhile (· != '=') with
  | [] => (name, none)
  | _ :: value => (name, some (String.ofList value))

def Word.ofText (text : String) : Word :=
  match text.toList with
  | ['-', '-'] => separator
  | '-' :: '-' :: characters =>
    let (name, value) := splitValue characters
    long name value
  | '-' :: letter :: letters => short (letter :: letters)
  | _ => plain

/-! ### Drafts -/

/-- A value that was read but not looked at. -/
inductive PendingValue where
  | root (value : String)
  | parameter (parameter : Parameter) (value : Option String)
deriving DecidableEq, Repr

structure Draft where
  root : Option String := none
  packages : List String := []
  config : Option String := none
  format : Option OutputFormat := none
  passes : Option Nat := none
  factsIn : Option String := none
  factsOut : Option String := none
  switches : List Switch := []
  pending : Option PendingValue := none
  /-- Set behind a separator. -/
  plainOnly : Bool := false

namespace Draft

def path (name value : String) : Except ArgumentError String :=
  if value.isEmpty then .error (.missingValue name []) else .ok value

def once {α : Type} (parameter : Parameter) (old : Option α)
    (value : Except ArgumentError α) : Except ArgumentError (Option α) :=
  if old.isSome then .error (.repeated parameter.label) else value.map some

def formatOf (value : String) : Except ArgumentError OutputFormat :=
  match value with
  | "text" => .ok .text
  | "json" => .ok .json
  | "" => .error (.missingValue Parameter.format.label Parameter.format.choices)
  | _ => .error (.unknownChoice value Parameter.format.label Parameter.format.choices)

def passesOf (value : String) : Except ArgumentError Nat :=
  match parseCount value with
  | .ok count => .ok count
  | .error error => .error (.malformedNumber value Parameter.passes.label error)

def assign (draft : Draft) (parameter : Parameter) (value : String) :
    Except ArgumentError Draft := do
  match parameter with
  | .config =>
    return { draft with config := ← once parameter draft.config (path parameter.label value) }
  | .format => return { draft with format := ← once parameter draft.format (formatOf value) }
  | .passes => return { draft with passes := ← once parameter draft.passes (passesOf value) }
  | .factsIn =>
    return { draft with factsIn := ← once parameter draft.factsIn (path parameter.label value) }
  | .factsOut =>
    return { draft with factsOut := ← once parameter draft.factsOut (path parameter.label value) }

def settle (draft : Draft) : Except ArgumentError Draft := do
  let settled := { draft with pending := none }
  match draft.pending with
  | none => return draft
  | some (.root value) => return { settled with root := some (← path "<ROOT>" value) }
  | some (.parameter parameter none) =>
    throw (.missingValue parameter.label parameter.choices)
  | some (.parameter parameter (some value)) => settled.assign parameter value

/-- The root comes first, then patterns. -/
def addPlain (draft : Draft) (text : String) : Except ArgumentError Draft := do
  let draft ← draft.settle
  if draft.root.isNone then return { draft with pending := some (.root text) }
  return { draft with packages := draft.packages ++ [text] }

def addSwitch (draft : Draft) (switch : Switch) : Except ArgumentError Draft := do
  let draft ← draft.settle
  if draft.switches.contains switch then throw (.repeated ("--" ++ switch.name))
  return { draft with switches := draft.switches ++ [switch] }

/-- A letter of a group of short arguments.  The answer is `none` when help is
asked for. -/
def addLetters (command : Command) (draft : Draft) :
    List Char → Except ArgumentError (Option Draft)
  | [] => return draft
  | letter :: letters => do
    if letter = 'h' then
      let _ ← draft.settle
      return none
    match command.switches.find? fun switch => switch.letter? = some letter with
    | some switch => addLetters command (← draft.addSwitch switch) letters
    | none => throw (.unexpectedArgument ("-" ++ letter.toString))

def addLong (command : Command) (draft : Draft) (text name : String) (value : Option String) :
    Except ArgumentError (Option Draft) := do
  match command.parameters.find? fun parameter => parameter.name = name with
  | some parameter =>
    let draft ← draft.settle
    match value with
    | some value => return some (← draft.assign parameter value)
    | none => return some { draft with pending := some (.parameter parameter none) }
  | none =>
    let switch := command.switches.find? fun switch => switch.name = name
    if switch.isNone && name != "help" then throw (.unexpectedArgument text)
    if let some value := value then throw (.unexpectedValue value ("--" ++ name))
    match switch with
    | some switch => return some (← draft.addSwitch switch)
    | none =>
      let _ ← draft.settle
      return none

/-- The next word.  The answer is `none` when help is asked for. -/
def add (command : Command) (draft : Draft) (text : String) :
    Except ArgumentError (Option Draft) := do
  if draft.plainOnly then return some (← draft.addPlain text)
  match Word.ofText text with
  | .separator => return some { draft with plainOnly := true }
  | .long name value => draft.addLong command text name value
  | .short letters => draft.addLetters command letters
  | .plain =>
    match draft.pending with
    | some (.parameter parameter none) =>
      return some { draft with pending := some (.parameter parameter (some text)) }
    | _ => return some (← draft.addPlain text)

def request (command : Command) (draft : Draft) : Except ArgumentError Request := do
  let draft ← draft.settle
  match draft.root with
  | none => throw .missingRoot
  | some root =>
    let target : Target := ⟨root, draft.packages, draft.config⟩
    match command with
    | .facts => return .facts target draft.factsIn
    | .run =>
      return .run target draft.factsIn {
        format := draft.format
        passes := draft.passes
        trace := draft.switches.contains .trace
        noColor := draft.switches.contains .noColor
        factsOut := draft.factsOut }

def read (command : Command) (draft : Draft) : List String → Except ArgumentError Request
  | [] => draft.request command
  | text :: texts => do
    match ← draft.add command text with
    | some draft => draft.read command texts
    | none => return .help (.command command)

end Draft

/-! ### Whole command lines -/

def HelpTopic.ofWords : List String → Except ArgumentError HelpTopic
  | [] => .ok .program
  | ["run"] => .ok (.command .run)
  | ["facts"] => .ok (.command .facts)
  | ["help"] => .ok .help
  | "run" :: word :: _ | "facts" :: word :: _ | "help" :: word :: _ => .error (.unknownCommand word)
  | word :: _ => .error (.unknownCommand word)

def Request.ofWords : List String → Except ArgumentError Request
  | [] => .error .missingCommand
  | "run" :: texts => Draft.read .run {} texts
  | "facts" :: texts => Draft.read .facts {} texts
  | "help" :: texts => (HelpTopic.ofWords texts).map .help
  | text :: _ =>
    match Word.ofText text with
    | .long "version" none => .ok .version
    | .long "help" none => .ok (.help .program)
    | .short ('V' :: _) => .ok .version
    | .short ('h' :: _) => .ok (.help .program)
    | .plain => .error (.unknownCommand text)
    | _ => .error (.unexpectedArgument text)

end Unclosed
