import Unclosed.Toml.Number

/-!
Reading a TOML document.
-/

namespace Unclosed.Toml

/-! ### Keys -/

def isBareKey (character : Char) : Bool :=
  character.isAlphanum || character == '_' || character == '-'

def simpleKey? : List Char → Option (String × List Char)
  | '"' :: rest => (basicString rest).map fun (key, rest) => (String.ofList key, rest)
  | '\'' :: rest => (literalString rest).map fun (key, rest) => (String.ofList key, rest)
  | text =>
    let key := text.takeWhile isBareKey
    if key.isEmpty then none else some (String.ofList key, text.dropWhile isBareKey)

/-- A dotted key has no more parts, and values are not nested deeper. -/
def maxNesting : Nat := 79

def keys? : Nat → List Char → Option (List String × List Char)
  | 0, _ => none
  | most + 1, text => do
    let (key, rest) ← simpleKey? (skipBlanks text)
    match skipBlanks rest with
    | '.' :: rest =>
      let (later, rest) ← keys? most rest
      some (key :: later, rest)
    | rest => some ([key], rest)

def keyPath? (text : List Char) : Option (List String × String × List Char) := do
  let (keys, rest) ← keys? maxNesting text
  let key ← keys.getLast?
  some (keys.dropLast, key, rest)

/-! ### Values -/

def scalarValue? : List Char → Option (Toml × List Char)
  | 't' :: 'r' :: 'u' :: 'e' :: rest => some (.boolean true, rest)
  | 'f' :: 'a' :: 'l' :: 's' :: 'e' :: rest => some (.boolean false, rest)
  | text =>
    match text with
    | '"' :: _ | '\'' :: _ => (string? text).map fun (value, rest) => (.string value, rest)
    | _ =>
      match time? text with
      | some rest => some (.other, rest)
      | none => number? text

mutual

/-- A value with at most the given number of levels.  The fuel bounds the number of
nested and neighboring values. -/
def value? : Nat → Nat → List Char → Option (Toml × List Char)
  | 0, _, _ | _, 0, '[' :: _ | _, 0, '\x7b' :: _ => none
  | fuel + 1, levels + 1, '[' :: rest => do
    let (items, rest) ← items? fuel levels rest
    some (.array items, rest)
  | fuel + 1, levels + 1, '\x7b' :: rest =>
    match skipBlanks rest with
    | '\x7d' :: rest => some (.table .braces [], rest)
    | rest => braced? fuel levels [] rest
  | _, _, text => scalarValue? text

def items? : Nat → Nat → List Char → Option (List Toml × List Char)
  | 0, _, _ => none
  | fuel + 1, levels, text => do
    match ← skipFiller false text with
    | ']' :: rest => some ([], rest)
    | rest =>
      let (item, rest) ← value? fuel levels rest
      match ← skipFiller false rest with
      | ']' :: rest => some ([item], rest)
      | ',' :: rest =>
        let (later, rest) ← items? fuel levels rest
        some (item :: later, rest)
      | _ => none

def braced? : Nat → Nat → Entries → List Char → Option (Toml × List Char)
  | 0, _, _, _ => none
  | fuel + 1, levels, entries, text => do
    let (path, key, rest) ← keyPath? text
    let (value, rest) ← value? fuel levels (skipBlanks (← expect? '=' rest))
    match ← addValue true path key value .braces entries with
    | .table _ entries =>
      match skipBlanks rest with
      | '\x7d' :: rest => some (.table .braces entries, rest)
      | ',' :: rest => braced? fuel levels entries rest
      | _ => none
    | _ => none

end

/-! ### Lines -/

structure Document where
  entries : Entries
  /-- The table that values are added to. -/
  current : List String

namespace Document

def empty : Document := ⟨[], []⟩

def moveTo (current : List String) : Toml → Option Document
  | .table _ entries => some ⟨entries, current⟩
  | _ => none

def line? (document : Document) (text : List Char) : Option (Document × List Char) := do
  match skipBlanks text with
  | '[' :: '[' :: rest =>
    let (path, key, rest) ← keyPath? rest
    let rest ← endLine (← expect? ']' (← expect? ']' rest))
    let root ← addArrayHeader path key .header document.entries
    some (← moveTo (path ++ [key]) root, rest)
  | '[' :: rest =>
    let (path, key, rest) ← keyPath? rest
    let rest ← endLine (← expect? ']' rest)
    let root ← addHeader path key .header document.entries
    some (← moveTo (path ++ [key]) root, rest)
  | [] | '\n' :: _ | '\r' :: _ | '#' :: _ => some (document, ← endLine text)
  | rest =>
    let (path, key, rest) ← keyPath? rest
    let rest ← (expect? '=' rest).map skipBlanks
    let (value, rest) ← value? (2 * rest.length + 2) maxNesting rest
    let rest ← endLine rest
    let root ← within (addValue false path key value) document.current .header document.entries
    some (← moveTo document.current root, rest)

def lines? : Nat → Document → List Char → Option Document
  | _, document, [] => some document
  | 0, _, _ => none
  | fuel + 1, document, text => do
    let (document, rest) ← document.line? text
    lines? fuel document rest

end Document

def parse? (text : String) : Option Entries :=
  let characters :=
    match text.toList with
    | '\ufeff' :: rest => rest
    | characters => characters
  (Document.lines? characters.length .empty characters).map (·.entries)

end Unclosed.Toml
