/-!
Reading positions in a source text.  A cursor holds what is left to read and
the byte offset it has reached.
-/

namespace Unclosed.Grammar

/-- A place in a source text: the bytes before it and the characters after it. -/
structure Cursor where
  offset : Nat
  rest : List Char
deriving DecidableEq, Repr

namespace Cursor

def ofText (text : String) : Cursor := ⟨0, text.toList⟩

def atEnd (cursor : Cursor) : Bool := cursor.rest.isEmpty

def afterChars? : List Char → Cursor → Option Cursor
  | [], cursor => some cursor
  | wanted :: more, ⟨offset, next :: rest⟩ =>
    if wanted = next then afterChars? more ⟨offset + next.utf8Size, rest⟩ else none
  | _ :: _, ⟨_, []⟩ => none

def after? (word : String) (cursor : Cursor) : Option Cursor := afterChars? word.toList cursor

def startsWith (word : String) (cursor : Cursor) : Bool := (cursor.after? word).isSome

def afterChar? (predicate : Char → Bool) : Cursor → Option Cursor
  | ⟨offset, next :: rest⟩ =>
    if predicate next then some ⟨offset + next.utf8Size, rest⟩ else none
  | ⟨_, []⟩ => none

def skipWhileFrom (predicate : Char → Bool) (offset : Nat) : List Char → Cursor
  | [] => ⟨offset, []⟩
  | next :: rest =>
    if predicate next then skipWhileFrom predicate (offset + next.utf8Size) rest
    else ⟨offset, next :: rest⟩

def skipWhile (predicate : Char → Bool) (cursor : Cursor) : Cursor :=
  skipWhileFrom predicate cursor.offset cursor.rest

def takeBytes : Nat → List Char → List Char
  | _, [] => []
  | count, next :: rest =>
    if count = 0 then [] else next :: takeBytes (count - next.utf8Size) rest

def textTo (start stop : Cursor) : String :=
  String.ofList (takeBytes (stop.offset - start.offset) start.rest)

end Cursor

end Unclosed.Grammar
