import Unclosed.Ordered.Map
import Unclosed.Types.Table

/-!
The methods of an interface, its own and those of embedded interfaces.
-/

namespace Unclosed.TypeTable

/-- Methods in the order they were met, and the interfaces already seen. -/
structure MethodSearch where
  methods : List (String × TypeId)
  seen : List TypeId

/-- Add a method unless one of its name is there. -/
def addNew (methods : List (String × TypeId)) (method : String × TypeId) :
    List (String × TypeId) :=
  if methods.any (·.1 == method.1) then methods else methods ++ [method]

/-- Collect the methods of an interface and of those it embeds, each interface
once.  No chain of new interfaces is longer than the table. -/
def collectInterface (table : TypeTable) : Nat → TypeId → MethodSearch → MethodSearch
  | 0, _, search => search
  | bound + 1, id, search =>
    let underlying := table.underlying id
    if search.seen.contains underlying then search
    else
      match table.get underlying with
      | .interface type =>
        type.embedded.foldl (fun search next => collectInterface table bound next search)
          ⟨type.methods.foldl addNew search.methods, underlying :: search.seen⟩
      | _ => search

def interfaceMethods (table : TypeTable) (id : TypeId) : List (String × TypeId) :=
  (table.collectInterface (table.size + 1) id ⟨[], []⟩).methods.mergeSort
    fun first second => first.1 ≤ second.1

end Unclosed.TypeTable
