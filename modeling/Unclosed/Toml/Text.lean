/-!
The lexical parts of TOML: blanks, comments, line ends and strings.  Each
reader answers what it read and the characters behind it.
-/

namespace Unclosed.Toml

def isBlank (character : Char) : Bool := character == ' ' || character == '\t'

def skipBlanks (text : List Char) : List Char := text.dropWhile isBlank

/-- Characters of comments and strings: no control characters but tabs. -/
def isPlain (character : Char) : Bool :=
  character == '\t' || (32 ≤ character.toNat && character.toNat != 127)

def afterNewline? : List Char → Option (List Char)
  | '\n' :: rest => some rest
  | '\r' :: '\n' :: rest => some rest
  | _ => none

def skipNewline (text : List Char) : List Char := (afterNewline? text).getD text

def endLine (text : List Char) : Option (List Char) :=
  let rest :=
    match skipBlanks text with
    | '#' :: comment => comment.dropWhile isPlain
    | rest => rest
  match rest with
  | [] => some []
  | rest => afterNewline? rest

def skipFiller : Bool → List Char → Option (List Char)
  | _, [] => some []
  | _, '\n' :: rest => skipFiller false rest
  | _, '\r' :: '\n' :: rest => skipFiller false rest
  | true, next :: rest => if isPlain next then skipFiller true rest else none
  | false, '#' :: rest => skipFiller true rest
  | false, next :: rest => if isBlank next then skipFiller false rest else some (next :: rest)

/-! ### Escapes -/

def hexDigit? (character : Char) : Option Nat :=
  if '0' ≤ character && character ≤ '9' then some (character.toNat - '0'.toNat)
  else if 'a' ≤ character && character ≤ 'f' then some (character.toNat - 'a'.toNat + 10)
  else if 'A' ≤ character && character ≤ 'F' then some (character.toNat - 'A'.toNat + 10)
  else none

def scalar? (digits : List Char) : Option Char := do
  let values ← digits.mapM hexDigit?
  let number := values.foldl (fun number digit => number * 16 + digit) 0
  if number.isValidChar then some (Char.ofNat number) else none

def shortEscape? : Char → Option Char
  | 'b' => some '\x08'
  | 't' => some '\t'
  | 'n' => some '\n'
  | 'f' => some '\x0c'
  | 'r' => some '\r'
  | '"' => some '"'
  | '\\' => some '\\'
  | _ => none

/-! ### Strings -/

def consTo (character : Option Char) (rest : Option (List Char × List Char)) :
    Option (List Char × List Char) := do
  let first ← character
  let (later, behind) ← rest
  some (first :: later, behind)

def basicString : List Char → Option (List Char × List Char)
  | [] => none
  | '"' :: rest => some ([], rest)
  | '\\' :: 'u' :: a :: b :: c :: d :: rest => consTo (scalar? [a, b, c, d]) (basicString rest)
  | '\\' :: 'U' :: a :: b :: c :: d :: e :: f :: g :: h :: rest =>
    consTo (scalar? [a, b, c, d, e, f, g, h]) (basicString rest)
  | '\\' :: next :: rest => consTo (shortEscape? next) (basicString rest)
  | next :: rest => if isPlain next then consTo (some next) (basicString rest) else none

/-- Whether a backslash before the text only continues the line. -/
def continuesLine (text : List Char) : Bool := (afterNewline? (skipBlanks text)).isSome

/-- A string in three double quotes, behind the first ones.  A backslash at the
end of a line skips all blanks and line breaks behind it. -/
def longBasicString : Bool → List Char → Option (List Char × List Char)
  | _, [] => none
  | true, '\n' :: rest => longBasicString true rest
  | true, '\r' :: '\n' :: rest => longBasicString true rest
  | true, ' ' :: rest => longBasicString true rest
  | true, '\t' :: rest => longBasicString true rest
  | _, '"' :: '"' :: '"' :: '"' :: '"' :: rest => some (['"', '"'], rest)
  | _, '"' :: '"' :: '"' :: '"' :: rest => some (['"'], rest)
  | _, '"' :: '"' :: '"' :: rest => some ([], rest)
  | _, '\n' :: rest => consTo (some '\n') (longBasicString false rest)
  | _, '\r' :: '\n' :: rest => consTo (some '\n') (longBasicString false rest)
  | _, '\\' :: 'u' :: a :: b :: c :: d :: rest =>
    consTo (scalar? [a, b, c, d]) (longBasicString false rest)
  | _, '\\' :: 'U' :: a :: b :: c :: d :: e :: f :: g :: h :: rest =>
    consTo (scalar? [a, b, c, d, e, f, g, h]) (longBasicString false rest)
  | _, '\\' :: next :: rest =>
    if continuesLine (next :: rest) then longBasicString true rest
    else consTo (shortEscape? next) (longBasicString false rest)
  | _, next :: rest =>
    if isPlain next then consTo (some next) (longBasicString false rest) else none

def literalString : List Char → Option (List Char × List Char)
  | [] => none
  | '\'' :: rest => some ([], rest)
  | next :: rest => if isPlain next then consTo (some next) (literalString rest) else none

def longLiteralString : List Char → Option (List Char × List Char)
  | [] => none
  | '\'' :: '\'' :: '\'' :: '\'' :: '\'' :: rest => some (['\'', '\''], rest)
  | '\'' :: '\'' :: '\'' :: '\'' :: rest => some (['\''], rest)
  | '\'' :: '\'' :: '\'' :: rest => some ([], rest)
  | '\n' :: rest => consTo (some '\n') (longLiteralString rest)
  | '\r' :: '\n' :: rest => consTo (some '\n') (longLiteralString rest)
  | next :: rest => if isPlain next then consTo (some next) (longLiteralString rest) else none

def string? : List Char → Option (String × List Char)
  | '"' :: '"' :: '"' :: rest => finish (longBasicString false (skipNewline rest))
  | '"' :: rest => finish (basicString rest)
  | '\'' :: '\'' :: '\'' :: rest => finish (longLiteralString (skipNewline rest))
  | '\'' :: rest => finish (literalString rest)
  | _ => none
where
  finish (read : Option (List Char × List Char)) : Option (String × List Char) :=
    read.map fun (characters, rest) => (String.ofList characters, rest)

end Unclosed.Toml
