import Unclosed.Load.Error
import Unclosed.Ordered.Map

/-!
Source files grouped by import path, and the patterns that select packages.
-/

namespace Unclosed

structure TreeFile where
  name : String
  content : String
deriving DecidableEq, Repr

/-- For each import path the files of the package, in the order they are read. -/
structure SourceTree where
  packages : OrderedMap (List TreeFile)

namespace SourceTree

def empty : SourceTree := ⟨OrderedMap.empty⟩

def insert (tree : SourceTree) (package : String) (file : TreeFile) : SourceTree :=
  ⟨tree.packages.modify package fun files => files.getD [] ++ [file]⟩

def addFile (tree : SourceTree) (package fileName content : String) : SourceTree :=
  tree.insert package ⟨package ++ "/" ++ fileName, content⟩

def contains (tree : SourceTree) (package : String) : Bool := tree.packages.contains package

def files? (tree : SourceTree) (package : String) : Option (List TreeFile) :=
  tree.packages.get? package

def paths (tree : SourceTree) : List String := tree.packages.keys

def size (tree : SourceTree) : Nat := tree.packages.size

end SourceTree

/-! ### Patterns -/

/-- Selects one package, or a package with all packages below it. -/
inductive PackagePattern where
  | exact (path : List Char)
  | below (path : List Char)
deriving DecidableEq, Repr

namespace PackagePattern

def dropDotSlash : List Char → List Char
  | '.' :: '/' :: rest => dropDotSlash rest
  | characters => characters

def dropEndSlashes (characters : List Char) : List Char :=
  (characters.reverse.dropWhile (· == '/')).reverse

def trim (text : String) : List Char := dropEndSlashes (dropDotSlash text.toList)

def ofTrimmed (characters : List Char) : PackagePattern :=
  match characters.reverse with
  | '.' :: '.' :: '.' :: before => below (dropEndSlashes before.reverse)
  | _ => exact characters

/-- Whether a path is the given one or continues it after a slash. -/
def isBelow : List Char → List Char → Bool
  | [], [] => true
  | [], next :: _ => next == '/'
  | _ :: _, [] => false
  | first :: path, next :: rest => first == next && isBelow path rest

def selects : PackagePattern → String → Bool
  | exact path, package => package.toList == path
  | below path, package => path.isEmpty || isBelow path package.toList

end PackagePattern

/-- The packages that a list of patterns selects, in ascending order.  Each
pattern must select one; no patterns select all packages. -/
def SourceTree.expand (tree : SourceTree) (patterns : List String) :
    Except LoadError (List String) :=
  if patterns.isEmpty then .ok tree.paths
  else ascending <$> collect patterns
where
  collect : List String → Except LoadError (List String)
    | [] => .ok []
    | text :: later =>
      let trimmed := PackagePattern.trim text
      let selected := tree.paths.filter (PackagePattern.ofTrimmed trimmed).selects
      if selected.isEmpty then .error (.noMatch (String.ofList trimmed))
      else (selected ++ ·) <$> collect later

end Unclosed
