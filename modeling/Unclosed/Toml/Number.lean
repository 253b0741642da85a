import Unclosed.Toml.Text
import Unclosed.Toml.Value

/-!
Numbers and points in time in TOML.  Only integers keep their value.
-/

namespace Unclosed.Toml

/-! ### Runs of digits -/

/-- Further digits of a run, each behind at most one underscore. -/
def moreDigits (isDigit : Char → Bool) : List Char → List Char × List Char
  | '_' :: next :: rest =>
    if isDigit next then
      let (digits, behind) := moreDigits isDigit rest
      (next :: digits, behind)
    else ([], '_' :: next :: rest)
  | next :: rest =>
    if isDigit next then
      let (digits, behind) := moreDigits isDigit rest
      (next :: digits, behind)
    else ([], next :: rest)
  | [] => ([], [])

def digits? (isDigit : Char → Bool) : List Char → Option (List Char × List Char)
  | first :: rest =>
    if isDigit first then
      let (digits, behind) := moreDigits isDigit rest
      some (first :: digits, behind)
    else none
  | [] => none

def digitsValue (radix : Nat) (digits : List Char) : Nat :=
  digits.foldl (fun value digit => value * radix + (hexDigit? digit).getD 0) 0

def decimal (character : Char) : Bool := character.isDigit

def wholeNumber? : List Char → Option (Nat × List Char)
  | '0' :: rest => some (0, rest)
  | text => (digits? decimal text).map fun (digits, rest) => (digitsValue 10 digits, rest)

/-! ### Integers and floats -/

/-- Integers have 64 bits and a sign. -/
def bounded? (value : Int) : Option Toml :=
  if -9223372036854775808 ≤ value ∧ value ≤ 9223372036854775807 then some (.integer value)
  else none

def exponent? : List Char → Option (Int × List Char)
  | '+' :: rest => signed 1 rest
  | '-' :: rest => signed (-1) rest
  | text => signed 1 text
where
  signed (sign : Int) (text : List Char) : Option (Int × List Char) :=
    (digits? decimal text).map fun (digits, rest) => (sign * digitsValue 10 digits, rest)

/-- What follows the whole part of a float: the digits behind the point, and the
exponent. -/
def fraction? : List Char → Option (List Char × Int × List Char)
  | '.' :: rest => do
    let (digits, rest) ← digits? decimal rest
    match rest with
    | 'e' :: rest | 'E' :: rest => (exponent? rest).map fun read => (digits, read)
    | _ => some (digits, 0, rest)
  | 'e' :: rest | 'E' :: rest => (exponent? rest).map fun read => ([], read)
  | _ => none

/-- The least number that no float of 64 bits is closest to. -/
def floatBound : Nat := 18014398509481983 <<< 970

def floatBoundDigits : Int := 309

/-- Whether a number with the given digits and exponent is too large for a float. -/
def exceedsFloat (digits : Nat) (exponent : Int) : Bool :=
  let length := (Nat.toDigits 10 digits).length + exponent
  if digits = 0 || length < floatBoundDigits then false
  else if floatBoundDigits < length then true
  else floatBound * Nat.pow 10 (-exponent).toNat ≤ digits * Nat.pow 10 exponent.toNat

/-- A float with the given whole part.  Only positive floats can be too large. -/
def float? (negative : Bool) (whole : Nat) (text : List Char) : Option (Toml × List Char) := do
  let (digits, exponent, rest) ← fraction? text
  let all := digits.foldl (fun value digit => value * 10 + (hexDigit? digit).getD 0) whole
  if !negative && exceedsFloat all (exponent - digits.length) then none else some (.other, rest)

def unsigned? (negative : Bool) : List Char → Option (Toml × List Char)
  | 'i' :: 'n' :: 'f' :: rest => some (.other, rest)
  | 'n' :: 'a' :: 'n' :: rest => some (.other, rest)
  | text => do
    let (value, rest) ← wholeNumber? text
    match rest with
    | '.' :: _ | 'e' :: _ | 'E' :: _ => float? negative value rest
    | _ => (bounded? (if negative then -(value : Int) else value)).map fun value => (value, rest)

def inRadix? (radix : Nat) (isDigit : Char → Bool) (text : List Char) :
    Option (Toml × List Char) := do
  let (digits, rest) ← digits? isDigit text
  let value ← bounded? (digitsValue radix digits : Int)
  some (value, rest)

def number? : List Char → Option (Toml × List Char)
  | '+' :: rest => unsigned? false rest
  | '-' :: rest => unsigned? true rest
  | '0' :: 'x' :: rest => inRadix? 16 (fun digit => (hexDigit? digit).isSome) rest
  | '0' :: 'o' :: rest => inRadix? 8 (fun digit => '0' ≤ digit && digit ≤ '7') rest
  | '0' :: 'b' :: rest => inRadix? 2 (fun digit => digit == '0' || digit == '1') rest
  | text => unsigned? false text

/-! ### Points in time -/

def pair? (least most : Nat) : List Char → Option (Nat × List Char)
  | tens :: ones :: rest =>
    let value := digitsValue 10 [tens, ones]
    if tens.isDigit && ones.isDigit && least ≤ value && value ≤ most then some (value, rest)
    else none
  | _ => none

def expect? (character : Char) : List Char → Option (List Char)
  | next :: rest => if next == character then some rest else none
  | [] => none

def daysInMonth (year month : Nat) : Nat :=
  if month = 2 then
    if year % 4 = 0 ∧ (year % 100 ≠ 0 ∨ year % 400 = 0) then 29 else 28
  else if month ∈ [4, 6, 9, 11] then 30 else 31

def date? (text : List Char) : Option (List Char) := do
  let (century, rest) ← pair? 0 99 text
  let (year, rest) ← pair? 0 99 rest
  let (month, rest) ← pair? 1 12 (← expect? '-' rest)
  let (_, rest) ← pair? 1 (daysInMonth (century * 100 + year) month) (← expect? '-' rest)
  some rest

def timeOfDay? (text : List Char) : Option (List Char) := do
  let (_, rest) ← pair? 0 23 text
  let (_, rest) ← pair? 0 59 (← expect? ':' rest)
  let (_, rest) ← pair? 0 60 (← expect? ':' rest)
  match rest with
  | '.' :: next :: behind =>
    if next.isDigit then some (behind.dropWhile Char.isDigit) else some rest
  | _ => some rest

def offset? : List Char → Option (List Char)
  | 'Z' :: rest | 'z' :: rest => some rest
  | '+' :: rest | '-' :: rest => do
    let (_, rest) ← pair? 0 23 rest
    let (_, rest) ← pair? 0 59 (← expect? ':' rest)
    some rest
  | _ => none

def time? (text : List Char) : Option (List Char) :=
  match date? text with
  | none => timeOfDay? text
  | some rest =>
    match rest with
    | divider :: behind =>
      if divider == 'T' || divider == 't' || divider == ' ' then
        match timeOfDay? behind with
        | some later => some ((offset? later).getD later)
        | none => some rest
      else some rest
    | [] => some rest

end Unclosed.Toml
