import Unclosed.Facts.Key
import Unclosed.Ordered.Map

/-!
Disposer facts: for each function whether it closes what it is given.  A key is
written at most once; a second map answers for keys that were not written.
-/

namespace Unclosed

def factText (isDisposer : Bool) : String := if isDisposer then "is closer" else "is not closer"

inductive FactError where
  | unreadable
  | malformed
  | wrongMagic
  | wrongVersion (version : Nat)
  /-- A key was written twice with different facts. -/
  | conflict (key : FuncKey) (existing new : Bool)
deriving DecidableEq, Repr

def FactError.message : FactError → String
  | unreadable => "I/O error"
  | malformed => "Serialization error"
  | wrongMagic => "Invalid fact file magic number"
  | wrongVersion version => "Unsupported fact file version: " ++ toString version
  | conflict key existing new =>
    "conflicting facts for " ++ key.text ++ ": already \"" ++ factText existing ++ "\", got \""
      ++ factText new ++ "\""

structure FactStore where
  written : OrderedMap Bool
  /-- Facts of an earlier run, consulted for keys that were not written. -/
  fallback : OrderedMap Bool

namespace FactStore

def empty : FactStore := ⟨OrderedMap.empty, OrderedMap.empty⟩

def withFallback (fallback : OrderedMap Bool) : FactStore := ⟨OrderedMap.empty, fallback⟩

/-- Write a fact; writing the same fact again changes nothing. -/
def write (store : FactStore) (key : FuncKey) (isDisposer : Bool) :
    Except FactError FactStore :=
  match store.written.get? key.text with
  | some existing =>
    if existing = isDisposer then .ok store else .error (.conflict key existing isDisposer)
  | none => .ok { store with written := store.written.insert key.text isDisposer }

def fact? (store : FactStore) (key : FuncKey) : Option Bool :=
  match store.written.get? key.text with
  | some fact => some fact
  | none => store.fallback.get? key.text

def isDisposer (store : FactStore) (key : FuncKey) : Bool := (store.fact? key).getD false

def contains (store : FactStore) (key : FuncKey) : Bool := store.written.contains key.text

def size (store : FactStore) : Nat := store.written.size

def snapshot (store : FactStore) : List (FuncKey × Bool) :=
  store.written.entries.map fun (key, fact) => (⟨key⟩, fact)

end FactStore

end Unclosed
