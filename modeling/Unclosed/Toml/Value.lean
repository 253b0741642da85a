/-!
TOML documents as trees.  A table remembers how it came about, because that
decides what may be added to it later.
-/

namespace Unclosed

structure TableKind where
  /-- Made on the way to another table, not by a header of its own. -/
  implicit : Bool
  /-- Made by a dotted key. -/
  dotted : Bool
  /-- Written in braces. -/
  inline : Bool
deriving DecidableEq, Repr

namespace TableKind

def header : TableKind := ⟨false, false, false⟩

def braces : TableKind := ⟨false, false, true⟩

end TableKind

inductive Toml where
  | string (text : String)
  | integer (value : Int)
  | boolean (value : Bool)
  /-- A float or a point in time, which no setting takes. -/
  | other
  | array (items : List Toml)
  /-- An array of tables with headers. -/
  | tables (items : List Toml)
  /-- Entries in the order they were added. -/
  | table (kind : TableKind) (entries : List (String × Toml))

namespace Toml

abbrev Entries := List (String × Toml)

def setEntry (key : String) (value : Toml) : Entries → Entries
  | [] => [(key, value)]
  | (first, old) :: later =>
    if key = first then (key, value) :: later else (first, old) :: setEntry key value later

/-- Rebuild the table at the end of a path.  Missing tables are made on the way.
A dotted key must not reach into a table that has a header, and nothing is
added to a table in braces later on. -/
def descend (inline dotted : Bool) (finish : TableKind → Entries → Option Toml) :
    List String → TableKind → Entries → Option Toml
  | [], kind, entries => finish kind entries
  | key :: path, kind, entries => do
    let inner ←
      match entries.lookup key with
      | none => descend inline dotted finish path ⟨true, dotted, inline⟩ []
      | some (.table inner below) =>
        if inner.inline != inline || dotted && !inner.implicit then none
        else descend inline dotted finish path inner below
      | some (.tables items) =>
        match items.getLast? with
        | some (.table inner below) => do
          let last ← descend inline dotted finish path inner below
          some (.tables (items.dropLast ++ [last]))
        | _ => none
      | _ => none
    some (.table kind (setEntry key inner entries))

def within (finish : TableKind → Entries → Option Toml) :
    List String → TableKind → Entries → Option Toml
  | [], kind, entries => finish kind entries
  | key :: path, kind, entries => do
    let inner ←
      match entries.lookup key with
      | some (.table inner below) => within finish path inner below
      | some (.tables items) =>
        match items.getLast? with
        | some (.table inner below) => do
          let last ← within finish path inner below
          some (.tables (items.dropLast ++ [last]))
        | _ => none
      | _ => none
    some (.table kind (setEntry key inner entries))

def addValue (inline : Bool) (path : List String) (key : String) (value : Toml)
    (kind : TableKind) (entries : Entries) : Option Toml :=
  descend inline true (fun kind entries =>
    if kind.dotted == path.isEmpty || (entries.lookup key).isSome then none
    else some (.table kind (entries ++ [(key, value)])))
    path kind entries

/-- Open a table with a header, once. -/
def addHeader (path : List String) (key : String) (kind : TableKind) (entries : Entries) :
    Option Toml :=
  descend false false (fun kind entries =>
    let others := entries.filter fun entry => entry.1 != key
    match entries.lookup key with
    | none => some (.table kind (others ++ [(key, .table .header [])]))
    | some (.table inner below) =>
      if inner.implicit && !inner.dotted && !inner.inline then
        some (.table kind (others ++ [(key, .table .header below)]))
      else none
    | _ => none)
    path kind entries

def addArrayHeader (path : List String) (key : String) (kind : TableKind) (entries : Entries) :
    Option Toml :=
  descend false false (fun kind entries =>
    match entries.lookup key with
    | none => some (.table kind (entries ++ [(key, .tables [.table .header []])]))
    | some (.tables items) =>
      some (.table kind (setEntry key (.tables (items ++ [.table .header []])) entries))
    | _ => none)
    path kind entries

end Toml

end Unclosed
