/-!
Operators of the analyzed language, with their spellings and their precedence.
-/

namespace Unclosed

inductive UnaryOp where
  | plus | neg | not | bitNot | addr | recv
deriving DecidableEq, Repr

inductive BinaryOp where
  | logOr | logAnd | eq | notEq | lt | le | gt | ge
  | add | sub | or | xor | mul | div | rem | shl | shr | and | andNot
deriving DecidableEq, Repr

namespace BinaryOp

def precedence : BinaryOp → Nat
  | logOr => 1
  | logAnd => 2
  | eq | notEq | lt | le | gt | ge => 3
  | add | sub | or | xor => 4
  | mul | div | rem | shl | shr | and | andNot => 5

def isComparison (op : BinaryOp) : Bool := op.precedence == 3

def isLogical : BinaryOp → Bool
  | logOr | logAnd => true
  | _ => false

def isShift : BinaryOp → Bool
  | shl | shr => true
  | _ => false

/-- Spellings in the order they are tried: no spelling stands before a longer
one that it begins. -/
def spellings : List (String × BinaryOp) :=
  [("&^", andNot), ("<<", shl), (">>", shr), ("||", logOr), ("&&", logAnd), ("==", eq),
   ("!=", notEq), ("<=", le), (">=", ge), ("<", lt), (">", gt), ("+", add), ("-", sub),
   ("|", or), ("^", xor), ("*", mul), ("/", div), ("%", rem), ("&", and)]

end BinaryOp

/-- Plain assignment, short variable declaration, or compound assignment. -/
inductive AssignOp where
  | assign
  | define
  | compound (op : BinaryOp)
deriving DecidableEq, Repr

def AssignOp.spellings : List (String × AssignOp) :=
  [(":=", define), ("<<=", compound .shl), (">>=", compound .shr), ("&^=", compound .andNot),
   ("+=", compound .add), ("-=", compound .sub), ("*=", compound .mul), ("/=", compound .div),
   ("%=", compound .rem), ("&=", compound .and), ("|=", compound .or), ("^=", compound .xor),
   ("=", assign)]

inductive ChanDir where
  | both | send | recv
deriving DecidableEq, Repr

inductive LiteralKind where
  | int | float | string | char
deriving DecidableEq, Repr

inductive BranchKind where
  | break | continue | goto | fallthrough
deriving DecidableEq, Repr

end Unclosed
