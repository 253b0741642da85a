import Unclosed.Load.Tree
import Unclosed.Storage.Basic

/-!
Discovery of the packages below a directory.  Each directory that holds Go
files is a package, with its path below the root as its import path.
-/

namespace Unclosed.SourceTree

/-- Hidden and excluded directories hold no packages. -/
def isSkippedDirectory (settings : LoadSettings) (name : String) : Bool :=
  name.startsWith "." || name.startsWith "_" || settings.exclude.contains name

def isSourceName (name : String) : Bool := name.endsWith ".go" && !name.endsWith "_test.go"

def maxDepth : Nat := 4096

variable {m : Type → Type} [Monad m]

/-- Add a file of a package.  Files directly in the root are no part of a package. -/
def addStored (storage : Storage m) (package path : String) (tree : SourceTree) :
    ExceptT LoadError m SourceTree := do
  if package.isEmpty then return tree
  match ← storage.readText? path with
  | some content => return tree.insert package ⟨path, content⟩
  | none => throw (.unreadable path)

def addDirectory (storage : Storage m) (settings : LoadSettings) :
    Nat → String → String → SourceTree → ExceptT LoadError m SourceTree
  | 0, _, path, _ => throw (.unreadable path)
  | depth + 1, package, path, tree => do
    match ← storage.entries? path with
    | none => throw (.unreadable path)
    | some entries =>
      (entries.mergeSort fun first second => first.1 ≤ second.1).foldlM (fun tree entry => do
        let (name, kind) := entry
        let path := joinPath path name
        match kind with
        | .directory =>
          if isSkippedDirectory settings name then return tree
          let package := if package.isEmpty then name else package ++ "/" ++ name
          addDirectory storage settings depth package path tree
        | .file =>
          if isSourceName name then addStored storage package path tree else return tree) tree

/-- The packages below a root.  A root that is a file holds none. -/
def discover (storage : Storage m) (settings : LoadSettings) (root : String) :
    ExceptT LoadError m SourceTree := do
  match ← storage.kind? root with
  | some .directory => addDirectory storage settings maxDepth "" root empty
  | some .file => return empty
  | none => throw (.unreadable root)

end Unclosed.SourceTree
