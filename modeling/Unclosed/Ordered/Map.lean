/-!
Finite maps and sets of texts, kept in ascending order.  Texts compare by code
point, which is also the order of their bytes.
-/

namespace Unclosed

/-- Insert a text into an ascending list, once. -/
def insertAscending (text : String) : List String → List String
  | [] => [text]
  | first :: later =>
    if text < first then text :: first :: later
    else if text = first then first :: later
    else first :: insertAscending text later

def ascending (texts : List String) : List String := texts.foldr insertAscending []

/-- A map from texts, listed by ascending key. -/
structure OrderedMap (α : Type) where
  entries : List (String × α)

namespace OrderedMap

variable {α : Type}

def empty : OrderedMap α := ⟨[]⟩

def lookup (key : String) : List (String × α) → Option α
  | [] => none
  | (first, value) :: later => if key = first then some value else lookup key later

def get? (map : OrderedMap α) (key : String) : Option α := lookup key map.entries

def contains (map : OrderedMap α) (key : String) : Bool := (map.get? key).isSome

def insertEntry (key : String) (value : α) : List (String × α) → List (String × α)
  | [] => [(key, value)]
  | (first, old) :: later =>
    if key < first then (key, value) :: (first, old) :: later
    else if key = first then (key, value) :: later
    else (first, old) :: insertEntry key value later

def insert (map : OrderedMap α) (key : String) (value : α) : OrderedMap α :=
  ⟨insertEntry key value map.entries⟩

def modify (map : OrderedMap α) (key : String) (change : Option α → α) : OrderedMap α :=
  map.insert key (change (map.get? key))

/-- The later of two bindings of one key counts. -/
def ofList (bindings : List (String × α)) : OrderedMap α :=
  bindings.foldl (fun map (key, value) => map.insert key value) empty

def keys (map : OrderedMap α) : List String := map.entries.map Prod.fst

def size (map : OrderedMap α) : Nat := map.entries.length

def isEmpty (map : OrderedMap α) : Bool := map.entries.isEmpty

end OrderedMap

end Unclosed
