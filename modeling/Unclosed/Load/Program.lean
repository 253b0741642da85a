import Unclosed.Grammar.Error
import Unclosed.Load.Tree
import Unclosed.Standard.Library
import Unclosed.Typing.Package

/-!
Loading a program: the selected packages and all they import are parsed,
ordered and type checked.  Packages of the standard library come before
directories of the same path.  One malformed file, unknown import or import
cycle fails the whole load.
-/

namespace Unclosed

structure Package where
  path : String
  /-- The name in the package clause. -/
  name : String
  files : List NumberedFile
  names : Bindings
  info : TypeInfo
  imports : List String
  isStandard : Bool
  /-- Selected by a pattern, as opposed to only imported. -/
  requested : Bool

structure Program where
  sources : SourceMap
  types : TypeTable
  symbols : SymbolTable
  /-- Packages, dependencies first. -/
  packages : List Package
  /-- Places in the list of packages; each level needs only earlier ones. -/
  levels : List (List Nat)
  closer : TypeId

namespace Program

def package? (program : Program) (path : String) : Option Package :=
  program.packages.find? fun package => package.path == path

def requestedPackages (program : Program) : List Package :=
  program.packages.filter Package.requested

def levelPackages (program : Program) (level : List Nat) : List Package :=
  level.filterMap fun index => program.packages[index]?

end Program

/-- A failed load, with the files that were read until then. -/
structure LoadFailure where
  error : LoadError
  sources : SourceMap

namespace Loading

/-! ### Parsing -/

/-- A package before it is checked. -/
structure ParsedPackage where
  path : String
  files : List NumberedFile
  imports : List String
  isStandard : Bool

def parseFiles (sources : SourceMap) :
    List TreeFile → Except LoadFailure (List NumberedFile × SourceMap)
  | [] => .ok ([], sources)
  | file :: later =>
    let id := sources.nextId
    let sources := sources.add file.name file.content
    match Grammar.parseFile file.name file.content with
    | .error error => .error ⟨.malformed (error.diagnostic sources id), sources⟩
    | .ok parsed => do
      let (files, sources) ← parseFiles sources later
      return (⟨id, parsed⟩ :: files, sources)

def packageFiles? (tree : SourceTree) (path : String) : Option (List TreeFile × Bool) :=
  match StandardPackage.find? path with
  | some package => some ([⟨package.displayName, package.source⟩], true)
  | none => (tree.files? path).map fun files => (files, false)

def isKnown (tree : SourceTree) (path : String) : Bool := (packageFiles? tree path).isSome

def importSpecs (files : List NumberedFile) : List (FileId × ImportSpec) :=
  files.flatMap fun file => file.file.imports.map fun spec => (file.id, spec)

def unresolved (sources : SourceMap) (file : FileId) (spec : ImportSpec) : LoadFailure :=
  let region := (sources.region? file spec.span.start spec.span.stop).getD
    (Region.point ⟨1, 1, 0⟩ file)
  ⟨.unresolvedImport spec.path (.unresolvedImport region spec.path), sources⟩

def parsePackage (tree : SourceTree) (sources : SourceMap) (path : String) :
    Except LoadFailure (ParsedPackage × SourceMap) :=
  match packageFiles? tree path with
  | none => .error ⟨.noMatch path, sources⟩
  | some (files, isStandard) => do
    let (files, sources) ← parseFiles sources files
    let specs := importSpecs files
    match specs.find? fun (_, spec) => !isKnown tree spec.path with
    | some (file, spec) => throw (unresolved sources file spec)
    | none =>
      let imports := (specs.map fun (_, spec) => spec.path).eraseDups
      return (⟨path, files, imports, isStandard⟩, sources)

def isParsed (parsed : List ParsedPackage) (path : String) : Bool :=
  parsed.any fun package => package.path == path

/-- Parse the packages of a work list and all they import.  Every turn parses a
package that was not parsed before. -/
def parseClosure (tree : SourceTree) :
    Nat → List String → List ParsedPackage → SourceMap →
      Except LoadFailure (List ParsedPackage × SourceMap)
  | 0, _, parsed, sources => .ok (parsed, sources)
  | bound + 1, worklist, parsed, sources =>
    match worklist.dropWhile (isParsed parsed) with
    | [] => .ok (parsed, sources)
    | path :: later => do
      let (package, sources) ← parsePackage tree sources path
      parseClosure tree bound (later ++ package.imports) (parsed ++ [package]) sources

/-- Enough turns for every package that could be known. -/
def closureBound (tree : SourceTree) : Nat := StandardPackage.all.length + tree.size + 1

/-! ### Ordering and checking -/

def importGraph (parsed : List ParsedPackage) : ImportGraph :=
  parsed.foldl (fun graph package =>
    package.imports.foldl (fun graph imported => graph.addImport package.path imported)
      (graph.addPackage package.path))
    .empty

structure Checked where
  types : TypeTable
  symbols : SymbolTable
  packages : List Package

def checkNext (requested : List String) (checked : Checked) (package : ParsedPackage) : Checked :=
  let imported := (checked.packages.filter fun other => package.imports.contains other.path).map
    fun other => (other.path, other.names)
  let (result, types, symbols) :=
    checkPackage package.path imported package.files checked.types checked.symbols
  { types, symbols
    packages := checked.packages ++
      [{ path := package.path
         name := (package.files.head?.map fun file => file.file.package.name).getD ""
         files := package.files
         names := result.names
         info := result.info
         imports := package.imports
         isStandard := package.isStandard
         requested := requested.contains package.path }] }

def checkLevel (requested : List String) (parsed : List ParsedPackage) (checked : Checked)
    (level : List String) : Checked :=
  (level.filterMap fun path => parsed.find? fun package => package.path == path).foldl
    (checkNext requested) checked

/-- Check level after level, and number the packages of each level. -/
def checkLevels (requested : List String) (parsed : List ParsedPackage) :
    List (List String) → Checked → List (List Nat) × Checked
  | [], checked => ([], checked)
  | level :: later, checked =>
    let next := checkLevel requested parsed checked level
    let first := checked.packages.length
    let (levels, final) := checkLevels requested parsed later next
    ((List.range (next.packages.length - first)).map (first + ·) :: levels, final)

def interface? (checked : Checked) (package name : String) : Option TypeId := do
  let owner ← checked.packages.find? fun candidate => candidate.path == package
  let symbol ← checked.symbols.get? (← owner.names.lookup name)
  if symbol.kind == .typeName && checked.types.isInterface symbol.type then some symbol.type
  else none

end Loading

open Loading in
def loadProgram (settings : Settings) (tree : SourceTree) (patterns : List String) :
    Except LoadFailure Program := do
  let name := settings.analysis.disposableInterface
  let missing := LoadError.missingInterface name
  let some (package, interface) := settings.analysis.interfaceParts?
    | throw ⟨.settings (.invalid ("disposable-interface \"" ++ name
        ++ "\" is not a qualified name")), .empty⟩
  let requested ←
    match tree.expand patterns with
    | .ok requested => pure requested
    | .error error => throw ⟨error, .empty⟩
  unless isKnown tree package do throw ⟨missing, .empty⟩
  let (parsed, sources) ←
    parseClosure tree (closureBound tree) (requested ++ [package]) [] .empty
  let graph := importGraph parsed
  if let cycle :: _ := graph.cycles then throw ⟨.importCycle cycle, sources⟩
  let (levels, checked) := checkLevels requested parsed graph.levels
    ⟨Universe.initialTypes, Universe.initialSymbols, []⟩
  let some closer := interface? checked package interface | throw ⟨missing, sources⟩
  return ⟨sources, checked.types, checked.symbols, checked.packages, levels, closer⟩

end Unclosed
