/-!
Packages of the standard library.  Their declarations are known without
sources: each is a source text whose functions have no bodies.
-/

namespace Unclosed

structure StandardPackage where
  path : String
  fileName : String
  source : String

namespace StandardPackage

def displayName (package : StandardPackage) : String :=
  "$stub/" ++ package.path ++ "/" ++ package.fileName

def ofLines (lines : List String) : String :=
  lines.foldr (fun line text => line ++ "\n" ++ text) ""

end StandardPackage

end Unclosed
