/-!
The codes of findings and errors.  `C` codes are findings, which are warnings;
`E` codes stop a run before any analysis.
-/

namespace Unclosed

structure ErrorCode where
  family : Char
  number : Nat
  category : String
  description : String
  help : String
deriving DecidableEq, Repr

namespace ErrorCode

def digits (number : Nat) : List Char :=
  let plain := Nat.toDigits 10 number
  List.replicate (4 - plain.length) '0' ++ plain

def format (family : Char) (number : Nat) : String := String.ofList (family :: digits number)

def code (entry : ErrorCode) : String := format entry.family entry.number

def isFinding (entry : ErrorCode) : Bool := entry.family == 'C'

def text (entry : ErrorCode) : String :=
  entry.code ++ " [" ++ entry.category ++ "]: " ++ entry.description

def registry : List ErrorCode :=
  [⟨'C', 1001, "Disposal", "Disposable result of a call is never assigned",
      "Assign the result and close it, or return it to the caller"⟩,
   ⟨'C', 1002, "Disposal", "Disposable result of a deferred call is dropped",
      "Call the function before the defer and defer closing its result"⟩,
   ⟨'C', 1003, "Disposal", "Disposable result of a goroutine call is dropped",
      "Close the value inside the goroutine"⟩,
   ⟨'C', 1004, "Disposal", "Disposable value assigned to the blank identifier",
      "Bind the value to a name and close it"⟩,
   ⟨'C', 1005, "Disposal", "Disposable value is never closed",
      "Close the value, defer its closing, return it, or pass it to a function that closes it"⟩,
   ⟨'E', 1, "Parser", "Invalid syntax", "The analyzed file must be valid Go"⟩,
   ⟨'E', 1001, "Config", "Invalid configuration",
      "Check closecheck.toml and the command-line flags"⟩,
   ⟨'E', 4001, "Import", "Unresolved import",
      "Imports must name a bundled standard library package or a directory under the analysis root"⟩,
   ⟨'E', 4002, "Import", "Import cycle", "Break the cycle between the listed packages"⟩,
   ⟨'E', 4003, "Import", "Disposable interface not found",
      "`disposable-interface` must name an interface type, e.g. \"io.Closer\""⟩]

def get? (code : String) : Option ErrorCode := registry.find? (·.code == code)

def isRegistered (code : String) : Bool := (get? code).isSome

def ofFamily (family : Char) : List ErrorCode := registry.filter (·.family == family)

def findings : List ErrorCode := ofFamily 'C'

def digit? (character : Char) : Option Nat :=
  if '0' ≤ character && character ≤ '9' then some (character.toNat - '0'.toNat) else none

def numberFrom : Nat → List Char → Option Nat
  | value, [] => some value
  | value, next :: rest =>
    match digit? next with
    | some digit => numberFrom (10 * value + digit) rest
    | none => none

/-- A number in decimal digits, with or without a plus sign in front. -/
def parseNumber : List Char → Option Nat
  | [] => none
  | '+' :: first :: rest => numberFrom 0 (first :: rest)
  | text => numberFrom 0 text

/-- Split a code such as `C1005` into its family and its number, which takes up
four bytes. -/
def parse (code : String) : Option (Char × Nat) :=
  match code.toList with
  | [] => none
  | family :: number =>
    if (family = 'C' || family = 'E') && (String.ofList number).utf8ByteSize = 4 then
      (parseNumber number).map fun value => (family, value)
    else none

end ErrorCode

end Unclosed
