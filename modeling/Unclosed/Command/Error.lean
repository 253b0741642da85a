import Unclosed.Text.Similarity
import Unclosed.Text.Terminal

/-!
Command lines that are refused.
-/

namespace Unclosed

inductive NumberError where
  | empty
  | invalidDigit
  | tooLarge
deriving DecidableEq, Repr

def NumberError.message : NumberError → String
  | empty => "cannot parse integer from empty string"
  | invalidDigit => "invalid digit found in string"
  | tooLarge => "number too large to fit in target type"

def parseCount (text : String) : Except NumberError Nat :=
  match text.toList with
  | [] => .error .empty
  | ['+'] => .error .invalidDigit
  | '+' :: digits => digits.foldlM addDigit 0
  | digits => digits.foldlM addDigit 0
where
  addDigit (value : Nat) (digit : Char) : Except NumberError Nat :=
    if !digit.isDigit then .error .invalidDigit
    else
      let value := value * 10 + (digit.toNat - '0'.toNat)
      if value < UInt64.size then .ok value else .error .tooLarge

inductive ArgumentError where
  | missingCommand
  | unknownCommand (word : String)
  | unexpectedArgument (word : String)
  | unexpectedValue (value name : String)
  | repeated (name : String)
  | missingRoot
  /-- An argument without its value, which may have to be one of some words. -/
  | missingValue (name : String) (choices : List String)
  | unknownChoice (value name : String) (choices : List String)
  | malformedNumber (value name : String) (error : NumberError)
deriving DecidableEq, Repr

namespace ArgumentError

def showsUsage : ArgumentError → Bool
  | missingValue _ _ | unknownChoice _ _ _ | malformedNumber _ _ _ => false
  | _ => true

def choicesText (choices : List String) : String :=
  if choices.isEmpty then "" else "\n  [possible values: " ++ ", ".intercalate choices ++ "]"

def quoted (word : String) : String := "'" ++ Terminal.plain word ++ "'"

def summary : ArgumentError → String
  | missingCommand => "a command is required"
  | unknownCommand word => "unrecognized subcommand " ++ quoted word
  | unexpectedArgument word => "unexpected argument " ++ quoted word ++ " found"
  | unexpectedValue value name =>
    "unexpected value " ++ quoted value ++ " for '" ++ name ++ "' found; no more were expected"
  | repeated name => "the argument '" ++ name ++ "' cannot be used multiple times"
  | missingRoot => "the following required arguments were not provided:\n  <ROOT>"
  | missingValue name choices =>
    "a value is required for '" ++ name ++ "' but none was supplied" ++ choicesText choices
  | unknownChoice value name choices =>
    "invalid value " ++ quoted value ++ " for '" ++ name ++ "'" ++ choicesText choices
      ++ match similarWord? value choices with
        | some word => "\n\n  tip: a similar value exists: '" ++ word ++ "'"
        | none => ""
  | malformedNumber value name error =>
    "invalid value " ++ quoted value ++ " for '" ++ name ++ "': " ++ error.message

end ArgumentError

end Unclosed
