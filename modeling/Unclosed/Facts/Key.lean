/-!
Keys of functions and methods that stay the same from run to run.
-/

namespace Unclosed

/-- A function's full name: `pkg/path.Func`, `(pkg/path.T).Method` for a value
receiver, `(*pkg/path.T).Method` for a pointer receiver. -/
structure FuncKey where
  text : String
deriving DecidableEq, Repr

namespace FuncKey

def function (package name : String) : FuncKey := ⟨package ++ "." ++ name⟩

def method (package receiver : String) (pointer : Bool) (name : String) : FuncKey :=
  ⟨"(" ++ (if pointer then "*" else "") ++ package ++ "." ++ receiver ++ ")." ++ name⟩

def afterLastDot (characters : List Char) : List Char :=
  (characters.reverse.takeWhile (· != '.')).reverse

def name (key : FuncKey) : String := String.ofList (afterLastDot key.text.toList)

end FuncKey

end Unclosed
