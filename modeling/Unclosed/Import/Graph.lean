import Unclosed.Ordered.Map

/-!
The import graph of packages: levels in which every package imports only
packages of earlier levels, and import cycles.
-/

namespace Unclosed

/-- An import cycle; the first package is repeated at the end. -/
structure ImportCycle where
  path : List String
deriving DecidableEq, Repr

def ImportCycle.message (cycle : ImportCycle) : String :=
  "Import cycle detected:\n  " ++ " -> ".intercalate cycle.path

/-- For each package the packages that it imports and those that import it, in
ascending order. -/
structure ImportGraph where
  imports : OrderedMap (List String)
  importers : OrderedMap (List String)

namespace ImportGraph

def empty : ImportGraph := ⟨.empty, .empty⟩

def contains (graph : ImportGraph) (package : String) : Bool := graph.imports.contains package

def packages (graph : ImportGraph) : List String := graph.imports.keys

def importsOf (graph : ImportGraph) (package : String) : List String :=
  (graph.imports.get? package).getD []

def importersOf (graph : ImportGraph) (package : String) : List String :=
  (graph.importers.get? package).getD []

def addPackage (graph : ImportGraph) (package : String) : ImportGraph :=
  ⟨graph.imports.modify package (·.getD []), graph.importers.modify package (·.getD [])⟩

def addImport (graph : ImportGraph) (importer imported : String) : ImportGraph :=
  let added := (graph.addPackage importer).addPackage imported
  ⟨added.imports.modify importer fun known => insertAscending imported (known.getD []),
   added.importers.modify imported fun known => insertAscending importer (known.getD [])⟩

/-! ### Levels -/

/-- A level, and for each package how many of its imports have no level yet. -/
structure Wave where
  level : List String
  pending : OrderedMap Nat

def firstWave (graph : ImportGraph) : Wave :=
  let pending := graph.imports.entries.map fun (package, imported) => (package, imported.length)
  ⟨(pending.filter fun (_, count) => count == 0).map Prod.fst, ⟨pending⟩⟩

/-- Count off an import of a package.  With its last one, the package joins the level. -/
def Wave.countOff (wave : Wave) (importer : String) : Wave :=
  match wave.pending.get? importer with
  | none => wave
  | some count =>
    ⟨if count - 1 = 0 then insertAscending importer wave.level else wave.level,
     wave.pending.insert importer (count - 1)⟩

def nextWave (graph : ImportGraph) (wave : Wave) : Wave :=
  wave.level.foldl (fun next package => (graph.importersOf package).foldl Wave.countOff next)
    ⟨[], wave.pending⟩

def levelsFrom (graph : ImportGraph) : Nat → Wave → List (List String)
  | 0, _ => []
  | bound + 1, wave =>
    if wave.level.isEmpty then []
    else wave.level :: levelsFrom graph bound (graph.nextWave wave)

/-- The packages from which no import cycle is reachable, dependencies first. -/
def levels (graph : ImportGraph) : List (List String) :=
  graph.levelsFrom (graph.imports.size + 1) graph.firstWave

/-! ### Cycles -/

/-- What a depth-first search has seen so far. -/
structure Search where
  visited : List String
  cycles : List ImportCycle

/-- Follow the imports of a package below a path of importers.  An import on
the path closes a cycle. -/
def search (graph : ImportGraph) : Nat → List String → String → Search → Search
  | 0, _, _, state => state
  | bound + 1, path, package, state =>
    let extended := path ++ [package]
    (graph.importsOf package).foldl (fun (state : Search) next =>
      if !state.visited.contains next then
        graph.search bound extended next state
      else if extended.contains next then
        { state with
          cycles := state.cycles ++ [⟨extended.dropWhile (· != next) ++ [next]⟩] }
      else state)
      { state with visited := package :: state.visited }

/-- The import cycles that a depth-first search from every package meets. -/
def cycles (graph : ImportGraph) : List ImportCycle :=
  (graph.packages.foldl (fun (state : Search) package =>
    if state.visited.contains package then state
    else graph.search (graph.imports.size + 1) [] package state)
    ⟨[], []⟩).cycles

end ImportGraph

end Unclosed
