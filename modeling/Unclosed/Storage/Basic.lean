/-!
What the program needs of a place that stores files.
-/

namespace Unclosed

inductive EntryKind where
  | file
  | directory
deriving DecidableEq, Repr

/-- Access to stored files by path.  Nothing tells why a path cannot be used. -/
structure Storage (m : Type → Type) where
  kind? : String → m (Option EntryKind)
  /-- The files and directories in a directory, in any order. -/
  entries? : String → m (Option (List (String × EntryKind)))
  read? : String → m (Option (List UInt8))
  /-- Replace the content of a file, or make the file.  Tells whether it worked. -/
  write : String → List UInt8 → m Bool

def joinPath (directory name : String) : String :=
  if directory.toList.getLast? = some '/' then directory ++ name else directory ++ "/" ++ name

def Storage.readText? {m : Type → Type} [Monad m] (storage : Storage m) (path : String) :
    m (Option String) := do
  return (← storage.read? path).bind fun bytes => String.fromUTF8? ⟨bytes.toArray⟩

end Unclosed
