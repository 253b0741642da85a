import Unclosed.Grammar.Cursor
import Unclosed.Syntax.Span

/-!
Parsers with two kinds of failure.  A miss lets another alternative try; a halt
ends the whole parse.  Both carry the place that was reached, an optional
message and the constructs that were being read, innermost first.
-/

namespace Unclosed.Grammar

structure Fault where
  position : Cursor
  message : Option String
  contexts : List (Nat × String)
deriving DecidableEq, Repr

namespace Fault

def silent (position : Cursor) : Fault := ⟨position, none, []⟩

def saying (message : String) (position : Cursor) : Fault := ⟨position, some message, []⟩

/-- The fault to report when two alternatives fail: the one that got further,
then the one with more contexts, then the first. -/
def furthest (first second : Fault) : Fault :=
  if first.position.offset < second.position.offset then second
  else if second.position.offset < first.position.offset then first
  else if first.contexts.length < second.contexts.length then second
  else first

def within (start : Cursor) (label : String) (fault : Fault) : Fault :=
  { fault with contexts := fault.contexts ++ [(start.offset, label)] }

end Fault

inductive Reply (α : Type) where
  | done (value : α) (rest : Cursor)
  | miss (fault : Fault)
  | halt (fault : Fault)

def Reply.isDone {α : Type} : Reply α → Bool
  | done _ _ => true
  | _ => false

def Parser (α : Type) : Type := Cursor → Reply α

namespace Parser

variable {α β : Type}

protected def pure (value : α) : Parser α := fun cursor => .done value cursor

protected def bind (parser : Parser α) (next : α → Parser β) : Parser β := fun cursor =>
  match parser cursor with
  | .done value rest => next value rest
  | .miss fault => .miss fault
  | .halt fault => .halt fault

instance : Monad Parser where
  pure := Parser.pure
  bind := Parser.bind

def here : Parser Cursor := fun cursor => .done cursor cursor

def resume (cursor : Cursor) : Parser Unit := fun _ => .done () cursor

def skip (move : Cursor → Cursor) : Parser Unit := fun cursor => .done () (move cursor)

def fail : Parser α := fun cursor => .miss (.silent cursor)

def failSaying (message : String) : Parser α := fun cursor => .miss (.saying message cursor)

def haltSaying (message : String) : Parser α := fun cursor => .halt (.saying message cursor)

def move (step : Cursor → Option Cursor) : Parser Unit := fun cursor =>
  match step cursor with
  | some rest => .done () rest
  | none => .miss (.silent cursor)

def tag (word : String) : Parser Unit := move (Cursor.after? word)

def satisfy (predicate : Char → Bool) : Parser Unit := move (Cursor.afterChar? predicate)

def takeWhile (predicate : Char → Bool) : Parser Unit := skip (Cursor.skipWhile predicate)

def takeWhile1 (predicate : Char → Bool) : Parser Unit := do
  satisfy predicate
  takeWhile predicate

def orElse (first : Parser α) (second : Unit → Parser α) : Parser α := fun cursor =>
  match first cursor with
  | .miss earlier =>
    match second () cursor with
    | .miss later => .miss (earlier.furthest later)
    | reply => reply
  | reply => reply

instance : OrElse (Parser α) where
  orElse := orElse

/-- Try a parser; a miss leaves the place unchanged. -/
def optional (parser : Parser α) : Parser (Option α) := fun cursor =>
  match parser cursor with
  | .done value rest => .done (some value) rest
  | .miss _ => .done none cursor
  | .halt fault => .halt fault

/-- Try a parser; any failure leaves the place unchanged. -/
def probe (parser : Parser α) : Parser (Option α) := fun cursor =>
  match parser cursor with
  | .done value rest => .done (some value) rest
  | _ => .done none cursor

def sees (parser : Parser α) : Parser Bool := fun cursor =>
  .done (parser cursor).isDone cursor

def context (label : String) (parser : Parser α) : Parser α := fun cursor =>
  match parser cursor with
  | .miss fault => .miss (fault.within cursor label)
  | .halt fault => .halt (fault.within cursor label)
  | reply => reply

/-- What one turn of a repetition contributes. -/
inductive Turn (α : Type) where
  | stop
  | pass
  | last (item : α)
  | more (item : α)

def collect (turn : Parser (Turn α)) : Nat → Parser (List α)
  | 0 => fail
  | bound + 1 => do
    match ← turn with
    | .stop => pure []
    | .pass => collect turn bound
    | .last item => pure [item]
    | .more item => do
      let items ← collect turn bound
      pure (item :: items)

/-- Replace a value as long as the step gives a new one, at most `bound` times. -/
def iterate (step : α → Parser (Option α)) : Nat → α → Parser α
  | 0, _ => fail
  | bound + 1, value => do
    match ← step value with
    | some next => iterate step bound next
    | none => pure value

def separatedTurn (separator : Parser Unit) (item : Parser α) : Parser (Turn α) := do
  match ← optional (do separator; item) with
  | some next => pure (.more next)
  | none => pure .stop

/-- One or more items.  A separator that no item follows is left unread. -/
def separated (bound : Nat) (separator : Parser Unit) (item : Parser α) : Parser (List α) := do
  let first ← item
  let others ← collect (separatedTurn separator item) bound
  pure (first :: others)

def recognize (parser : Parser Unit) : Parser (String × Span) := do
  let start ← here
  parser
  let stop ← here
  pure (start.textTo stop, ⟨start.offset, stop.offset⟩)

end Parser

end Unclosed.Grammar
