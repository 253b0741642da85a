import Mathlib.Data.List.Perm.Subperm
import Unclosed.Proofs.ImportCycles
import Unclosed.Proofs.LoadedPackages

/-!
The packages that a program needs: the selected ones and all that is imported
from a needed one.  Parsing from a work list ends with exactly these, and it fails
only where a needed file is malformed or an import is unknown.
-/

namespace Unclosed

namespace SourceTree

/-- The files that a path stands for.  A package of the standard library comes
before a directory of the same path. -/
inductive Provides (tree : SourceTree) (path : String) : List TreeFile → Bool → Prop where
  | standard {package : StandardPackage} (found : StandardPackage.find? path = some package) :
      Provides tree path [⟨package.displayName, package.source⟩] true
  | directory {files : List TreeFile} (absent : StandardPackage.find? path = none)
      (found : tree.files? path = some files) : Provides tree path files false

def Known (tree : SourceTree) (path : String) : Prop :=
  ∃ files isStandard, tree.Provides path files isStandard

def Imports (tree : SourceTree) (importer imported : String) : Prop :=
  ∃ files isStandard, tree.Provides importer files isStandard ∧
    ∃ file ∈ files, ∃ parsed, Grammar.parseFile file.name file.content = .ok parsed ∧
      ∃ spec ∈ parsed.imports, spec.path = imported

inductive Needed (tree : SourceTree) (roots : List String) : String → Prop where
  | root {path : String} (member : path ∈ roots) : Needed tree roots path
  | imported {importer path : String} (needed : Needed tree roots importer)
      (imports : tree.Imports importer path) : Needed tree roots path

def Parses (tree : SourceTree) (path : String) : Prop :=
  ∀ files isStandard, tree.Provides path files isStandard →
    ∀ file ∈ files, ∃ parsed, Grammar.parseFile file.name file.content = .ok parsed

end SourceTree

namespace Loading

variable {tree : SourceTree} {files : List TreeFile} {isStandard : Bool} {sources final : SourceMap}
  {numbered : List NumberedFile} {imported path : String} {package : ParsedPackage}
  {all : List ParsedPackage} {graph : ImportGraph}

/-! ### One package -/

theorem packageFiles?_eq_some_iff :
    packageFiles? tree path = some (files, isStandard) ↔ tree.Provides path files isStandard := by
  constructor
  · intro found
    unfold packageFiles? at found
    split at found
    · next package standard =>
      cases found
      exact .standard standard
    · next absent =>
      obtain ⟨_, inTree, same⟩ := Option.map_eq_some_iff.mp found
      cases same
      exact .directory absent inTree
  · intro provides
    cases provides with
    | standard found => simp [packageFiles?, found]
    | directory absent found => simp [packageFiles?, absent, found]

theorem isKnown_iff : isKnown tree path = true ↔ tree.Known path := by
  unfold isKnown SourceTree.Known
  rw [Option.isSome_iff_exists]
  constructor
  · rintro ⟨⟨files, isStandard⟩, found⟩
    exact ⟨files, isStandard, packageFiles?_eq_some_iff.mp found⟩
  · rintro ⟨files, isStandard, provides⟩
    exact ⟨_, packageFiles?_eq_some_iff.mpr provides⟩

theorem provides_unique {files others : List TreeFile} {first second : Bool}
    (provides : tree.Provides path files first) (also : tree.Provides path others second) :
    files = others ∧ first = second := by
  rw [← packageFiles?_eq_some_iff] at provides also
  rw [provides] at also
  cases also
  exact ⟨rfl, rfl⟩

def ParsesTo (file : TreeFile) (numbered : NumberedFile) : Prop :=
  Grammar.parseFile file.name file.content = .ok numbered.file

theorem parseFiles_parsesTo (accepted : parseFiles sources files = .ok (numbered, final)) :
    List.Forall₂ ParsesTo files numbered := by
  induction files generalizing sources numbered with
  | nil =>
    cases accepted
    exact .nil
  | cons file later ih =>
    unfold parseFiles at accepted
    dsimp only at accepted
    split at accepted
    · cases accepted
    · next parsed parse =>
      cases rest : parseFiles (sources.add file.name file.content) later with
      | error failure =>
        rw [rest] at accepted
        cases accepted
      | ok result =>
        rw [rest] at accepted
        cases accepted
        exact .cons parse (ih rest)

theorem parseFiles_ok (sources : SourceMap)
    (parse : ∀ file ∈ files, ∃ parsed, Grammar.parseFile file.name file.content = .ok parsed) :
    ∃ result, parseFiles sources files = .ok result := by
  induction files generalizing sources with
  | nil => exact ⟨_, rfl⟩
  | cons file later ih =>
    rw [List.forall_mem_cons] at parse
    obtain ⟨parsed, first⟩ := parse.1
    obtain ⟨result, rest⟩ := ih (sources.add file.name file.content) parse.2
    unfold parseFiles
    dsimp only
    rw [first, rest]
    exact ⟨_, rfl⟩

structure ReadFrom (tree : SourceTree) (package : ParsedPackage) : Prop where
  files : ∃ files, tree.Provides package.path files package.isStandard ∧
    List.Forall₂ ParsesTo files package.files
  imports : ∀ imported, imported ∈ package.imports ↔ tree.Imports package.path imported

theorem exists_importSpecs_iff (parsed : List.Forall₂ ParsesTo files numbered) :
    (∃ entry ∈ importSpecs numbered, entry.2.path = imported) ↔
      ∃ file ∈ files, ∃ parsed, Grammar.parseFile file.name file.content = .ok parsed ∧
        ∃ spec ∈ parsed.imports, spec.path = imported := by
  induction parsed with
  | nil => simp [importSpecs]
  | @cons file first files later parse _ ih =>
    have split : importSpecs (first :: later) =
        (first.file.imports.map fun spec => (first.id, spec)) ++ importSpecs later := by
      simp [importSpecs]
    have here : (∃ parsed, Grammar.parseFile file.name file.content = .ok parsed ∧
        ∃ spec ∈ parsed.imports, spec.path = imported) ↔
          ∃ spec ∈ first.file.imports, spec.path = imported := by
      unfold ParsesTo at parse
      simp [parse]
    simp only [split, List.mem_append, List.mem_cons, or_and_right, exists_or, List.mem_map,
      exists_exists_and_eq_and, exists_eq_left, here, ih]

theorem mem_importSpecs_iff (provides : tree.Provides path files isStandard)
    (parsed : List.Forall₂ ParsesTo files numbered) :
    (∃ entry ∈ importSpecs numbered, entry.2.path = imported) ↔ tree.Imports path imported := by
  rw [exists_importSpecs_iff parsed]
  constructor
  · intro found
    exact ⟨files, isStandard, provides, found⟩
  · rintro ⟨others, second, also, found⟩
    rwa [(provides_unique provides also).1]

theorem parsePackage_readFrom (parsed : parsePackage tree sources path = .ok (package, final)) :
    package.path = path ∧ ReadFrom tree package := by
  obtain ⟨trees, isStandard, files, found, read, rfl⟩ := parsePackage_read parsed
  have provides := packageFiles?_eq_some_iff.mp found
  have parsesTo := parseFiles_parsesTo read
  refine ⟨rfl, ⟨trees, provides, parsesTo⟩, fun imported => ?_⟩
  rw [List.mem_eraseDups, List.mem_map]
  exact mem_importSpecs_iff provides parsesTo

theorem parsePackage_ok (sources : SourceMap) (known : tree.Known path) (parses : tree.Parses path)
    (resolve : ∀ imported, tree.Imports path imported → tree.Known imported) :
    ∃ result, parsePackage tree sources path = .ok result := by
  obtain ⟨files, isStandard, provides⟩ := known
  obtain ⟨⟨numbered, final⟩, read⟩ := parseFiles_ok sources (parses files isStandard provides)
  have resolved : ∀ entry ∈ importSpecs numbered, ¬(!isKnown tree entry.2.path) = true := by
    intro entry member unknown
    have imports := (mem_importSpecs_iff provides (parseFiles_parsesTo read)).mp
      ⟨entry, member, rfl⟩
    simp [isKnown_iff.mpr (resolve _ imports)] at unknown
  unfold parsePackage
  rw [packageFiles?_eq_some_iff.mpr provides]
  simp only [read, bind, Except.bind]
  rw [List.find?_eq_none.mpr resolved]
  exact ⟨_, rfl⟩

/-! ### The work list -/

def knownPaths (tree : SourceTree) : List String :=
  StandardPackage.all.map StandardPackage.path ++ tree.paths

theorem knownPaths_length : (knownPaths tree).length + 1 = closureBound tree := by
  simp [knownPaths, closureBound, SourceTree.paths, SourceTree.size, OrderedMap.keys,
    OrderedMap.size]

theorem mem_knownPaths (known : tree.Known path) : path ∈ knownPaths tree := by
  obtain ⟨files, isStandard, provides⟩ := known
  cases provides with
  | standard found =>
    refine List.mem_append_left _ (List.mem_map.mpr ⟨_, List.mem_of_find?_eq_some found, ?_⟩)
    simpa using List.find?_some found
  | directory absent found =>
    exact List.mem_append_right _ (OrderedMap.mem_keys_iff.mpr ⟨_, found⟩)

/-- The parsed packages and the work list on the way to all that is needed. -/
structure Closing (tree : SourceTree) (roots worklist : List String)
    (parsed : List ParsedPackage) : Prop where
  distinct : (parsed.map ParsedPackage.path).Nodup
  read : ∀ package ∈ parsed, ReadFrom tree package
  parsedNeeded : ∀ path ∈ parsed.map ParsedPackage.path, tree.Needed roots path
  listedNeeded : ∀ path ∈ worklist, tree.Needed roots path
  roots : ∀ path ∈ roots, path ∈ parsed.map ParsedPackage.path ∨ path ∈ worklist
  imports : ∀ package ∈ parsed, ∀ imported ∈ package.imports,
    imported ∈ parsed.map ParsedPackage.path ∨ imported ∈ worklist

namespace Closing

variable {roots worklist : List String} {parsed : List ParsedPackage}

theorem initially (tree : SourceTree) (roots : List String) : Closing tree roots roots [] where
  distinct := .nil
  read := by simp
  parsedNeeded := by simp
  listedNeeded path member := .root member
  roots path member := .inr member
  imports := by simp

section

variable (closing : Closing tree roots worklist parsed)
include closing

theorem dropWhile : Closing tree roots (worklist.dropWhile (isParsed parsed)) parsed := by
  have kept : ∀ path ∈ worklist, path ∈ parsed.map ParsedPackage.path ∨
      path ∈ worklist.dropWhile (isParsed parsed) := by
    intro path member
    rw [← List.takeWhile_append_dropWhile (p := isParsed parsed) (l := worklist)] at member
    rcases List.mem_append.mp member with dropped | kept
    · have found := List.mem_takeWhile_imp dropped
      unfold isParsed at found
      obtain ⟨package, inParsed, same⟩ := List.any_eq_true.mp found
      exact .inl (List.mem_map.mpr ⟨package, inParsed, beq_iff_eq.mp same⟩)
    · exact .inr kept
  exact
    { closing with
      listedNeeded := fun path member =>
        closing.listedNeeded path ((List.dropWhile_sublist _).subset member)
      roots := fun path member => (closing.roots path member).elim .inl (kept path)
      imports := fun package member imported isImport =>
        (closing.imports package member imported isImport).elim .inl (kept imported) }

omit closing in
theorem step {later : List String} (closing : Closing tree roots (path :: later) parsed)
    (fresh : path ∉ parsed.map ParsedPackage.path) (samePath : package.path = path)
    (read : ReadFrom tree package) :
    Closing tree roots (later ++ package.imports) (parsed ++ [package]) := by
  have needed : tree.Needed roots path := closing.listedNeeded path List.mem_cons_self
  have paths : (parsed ++ [package]).map ParsedPackage.path =
      parsed.map ParsedPackage.path ++ [path] := by
    rw [List.map_append, List.map_singleton, samePath]
  have moved : ∀ other, (other ∈ parsed.map ParsedPackage.path ∨ other ∈ path :: later) →
      other ∈ parsed.map ParsedPackage.path ++ [path] ∨ other ∈ later ++ package.imports := by
    intro other place
    rw [List.mem_cons] at place
    rw [List.mem_append, List.mem_append, List.mem_singleton]
    tauto
  refine ⟨?_, List.forall_mem_append.mpr ⟨closing.read, by simpa using read⟩, ?_, ?_, ?_, ?_⟩
  · rw [paths, ← List.concat_eq_append]
    exact List.Nodup.concat fresh closing.distinct
  · rw [paths]
    exact List.forall_mem_append.mpr ⟨closing.parsedNeeded, by simpa using needed⟩
  · refine List.forall_mem_append.mpr
      ⟨fun other member => closing.listedNeeded other (List.mem_cons_of_mem _ member), ?_⟩
    intro imported isImport
    rw [read.imports, samePath] at isImport
    exact .imported needed isImport
  · rw [paths]
    exact fun other member => moved other (closing.roots other member)
  · rw [paths]
    refine List.forall_mem_append.mpr ⟨fun other member imported isImport =>
      moved imported (closing.imports other member imported isImport), ?_⟩
    rw [List.forall_mem_singleton]
    exact fun imported isImport => .inr (List.mem_append_right _ isImport)

theorem known : ∀ path ∈ parsed.map ParsedPackage.path, tree.Known path := by
  intro path member
  obtain ⟨package, inParsed, rfl⟩ := List.mem_map.mp member
  obtain ⟨files, provides, _⟩ := (closing.read package inParsed).files
  exact ⟨files, _, provides⟩

theorem length_le : parsed.length ≤ (knownPaths tree).length := by
  have within : parsed.map ParsedPackage.path ⊆ knownPaths tree := fun path member =>
    mem_knownPaths (closing.known path member)
  simpa using (List.subperm_of_subset closing.distinct within).length_le

end

/-- With nothing left on the list, what is parsed is what is needed. -/
theorem mem_paths_iff (closing : Closing tree roots [] parsed) :
    path ∈ parsed.map ParsedPackage.path ↔ tree.Needed roots path := by
  constructor
  · exact closing.parsedNeeded path
  · intro needed
    induction needed with
    | root member => exact (closing.roots _ member).resolve_right List.not_mem_nil
    | imported needed imports ih =>
      obtain ⟨package, inParsed, rfl⟩ := List.mem_map.mp ih
      have isImport := ((closing.read package inParsed).imports _).mpr imports
      exact (closing.imports package inParsed _ isImport).resolve_right List.not_mem_nil

end Closing

section Closure

variable {roots worklist : List String} {parsed : List ParsedPackage}

/-- The bound is no limit: there are not more packages than could be known. -/
theorem parseClosure_closing {bound : Nat} (closing : Closing tree roots worklist parsed)
    (enough : (knownPaths tree).length < parsed.length + bound)
    (accepted : parseClosure tree bound worklist parsed sources = .ok (all, final)) :
    Closing tree roots [] all := by
  induction bound generalizing worklist parsed sources with
  | zero =>
    have := closing.length_le
    omega
  | succ bound ih =>
    have rest := closing.dropWhile
    unfold parseClosure at accepted
    split at accepted
    · next done =>
      cases accepted
      rwa [done] at rest
    · next path later remaining =>
      cases read : parsePackage tree sources path with
      | error failure =>
        rw [read] at accepted
        cases accepted
      | ok result =>
        rw [read] at accepted
        obtain ⟨samePath, readFrom⟩ := parsePackage_readFrom read
        rw [remaining] at rest
        refine ih (rest.step (fresh_of_dropWhile remaining) samePath readFrom) ?_ accepted
        rw [List.length_append, List.length_singleton]
        omega

theorem parseClosure_all
    (accepted : parseClosure tree (closureBound tree) roots [] sources = .ok (all, final)) :
    Closing tree roots [] all := by
  refine parseClosure_closing (.initially tree roots) ?_ accepted
  rw [← knownPaths_length, List.length_nil]
  omega

theorem parseClosure_ok (bound : Nat) (sources : SourceMap)
    (closing : Closing tree roots worklist parsed)
    (known : ∀ path, tree.Needed roots path → tree.Known path)
    (parses : ∀ path, tree.Needed roots path → tree.Parses path) :
    ∃ result, parseClosure tree bound worklist parsed sources = .ok result := by
  induction bound generalizing worklist parsed sources with
  | zero => exact ⟨_, rfl⟩
  | succ bound ih =>
    have rest := closing.dropWhile
    unfold parseClosure
    split
    · exact ⟨_, rfl⟩
    · next path later remaining =>
      rw [remaining] at rest
      have needed : tree.Needed roots path := rest.listedNeeded path List.mem_cons_self
      obtain ⟨⟨package, next⟩, read⟩ := parsePackage_ok sources (known path needed)
        (parses path needed) fun imported imports => known imported (.imported needed imports)
      obtain ⟨samePath, readFrom⟩ := parsePackage_readFrom read
      rw [read]
      exact ih next (rest.step (fresh_of_dropWhile remaining) samePath readFrom)

end Closure

/-! ### The graph of the parsed packages -/

structure Draws (graph : ImportGraph) (parsed : List ParsedPackage) : Prop where
  formed : graph.WellFormed
  packages : ∀ path, path ∈ graph.packages ↔
    ∃ package ∈ parsed, path = package.path ∨ path ∈ package.imports
  imports : ∀ path imported, imported ∈ graph.importsOf path ↔
    ∃ package ∈ parsed, path = package.path ∧ imported ∈ package.imports

theorem foldl_addImport (importer : String) (imports : List String) (formed : graph.WellFormed)
    (known : importer ∈ graph.packages) :
    let final := imports.foldl (fun graph imported => graph.addImport importer imported) graph
    final.WellFormed ∧
      (∀ path, path ∈ final.packages ↔ path ∈ graph.packages ∨ path ∈ imports) ∧
      ∀ path imported, imported ∈ final.importsOf path ↔
        imported ∈ graph.importsOf path ∨ path = importer ∧ imported ∈ imports := by
  induction imports generalizing graph with
  | nil => simpa using formed
  | cons first later ih =>
    have present : importer ∈ (graph.addImport importer first).packages :=
      ImportGraph.mem_packages_addImport.mpr (.inl rfl)
    obtain ⟨final, packages, edges⟩ :=
      ih (formed.addImport importer first) present
    refine ⟨final, fun path => ?_, fun path imported => ?_⟩
    · rw [List.foldl_cons, packages, ImportGraph.mem_packages_addImport, List.mem_cons]
      by_cases same : path = importer
      · simp [same, known]
      · tauto
    · rw [List.foldl_cons, edges, ImportGraph.importsOf_addImport, List.mem_cons]
      by_cases same : path = importer
      · rw [if_pos same, mem_insertAscending, same]
        tauto
      · rw [if_neg same]
        tauto

theorem Draws.add {parsed : List ParsedPackage} (draws : Draws graph parsed)
    (package : ParsedPackage) :
    Draws (package.imports.foldl (fun graph imported => graph.addImport package.path imported)
      (graph.addPackage package.path)) (parsed ++ [package]) := by
  obtain ⟨formed, packages, imports⟩ := foldl_addImport package.path package.imports
    (draws.formed.addPackage package.path) (ImportGraph.mem_packages_addPackage.mpr (.inl rfl))
  refine ⟨formed, fun path => ?_, fun path imported => ?_⟩
  · rw [packages, ImportGraph.mem_packages_addPackage, draws.packages]
    simp only [List.mem_append, List.mem_singleton, or_and_right, exists_or, exists_eq_left]
    exact or_assoc.trans or_left_comm
  · rw [imports, ImportGraph.importsOf_addPackage, draws.imports]
    simp only [List.mem_append, List.mem_singleton, or_and_right, exists_or, exists_eq_left]

theorem importGraph_draws (parsed : List ParsedPackage) : Draws (importGraph parsed) parsed := by
  have nothing : Draws .empty [] :=
    ⟨ImportGraph.WellFormed.empty, by simp [ImportGraph.packages, ImportGraph.empty, OrderedMap.keys,
      OrderedMap.empty], by simp [ImportGraph.importsOf, ImportGraph.empty, OrderedMap.get?,
      OrderedMap.lookup, OrderedMap.empty]⟩
  have all : ∀ (before later : List ParsedPackage) (graph : ImportGraph), Draws graph before →
      Draws (later.foldl (fun graph package =>
        package.imports.foldl (fun graph imported => graph.addImport package.path imported)
          (graph.addPackage package.path)) graph) (before ++ later) := by
    intro before later
    induction later generalizing before with
    | nil => simp
    | cons package later ih =>
      intro graph draws
      have next := ih (before ++ [package]) _ (draws.add package)
      rwa [List.append_assoc, List.singleton_append] at next
  exact all [] parsed .empty nothing

section Needed

variable {roots : List String} {parsed : List ParsedPackage}

variable (closing : Closing tree roots [] parsed)
include closing

theorem Closing.mem_packages_iff :
    path ∈ (importGraph parsed).packages ↔ tree.Needed roots path := by
  rw [(importGraph_draws parsed).packages, ← closing.mem_paths_iff]
  constructor
  · rintro ⟨package, inParsed, rfl | isImport⟩
    · exact List.mem_map.mpr ⟨package, inParsed, rfl⟩
    · exact (closing.imports package inParsed path isImport).resolve_right List.not_mem_nil
  · intro member
    obtain ⟨package, inParsed, same⟩ := List.mem_map.mp member
    exact ⟨package, inParsed, .inl same.symm⟩

theorem Closing.mem_importsOf_iff {importer : String} :
    imported ∈ (importGraph parsed).importsOf importer ↔
      tree.Needed roots importer ∧ tree.Imports importer imported := by
  rw [(importGraph_draws parsed).imports, ← closing.mem_paths_iff]
  constructor
  · rintro ⟨package, inParsed, rfl, isImport⟩
    exact ⟨List.mem_map.mpr ⟨package, inParsed, rfl⟩,
      ((closing.read package inParsed).imports imported).mp isImport⟩
  · rintro ⟨member, imports⟩
    obtain ⟨package, inParsed, rfl⟩ := List.mem_map.mp member
    exact ⟨package, inParsed, rfl, ((closing.read package inParsed).imports imported).mpr imports⟩

/-- Chains of imports in the graph are chains of imports between needed packages. -/
theorem Closing.transGen_importsOf_iff {first last : String} :
    Relation.TransGen (fun importer imported => imported ∈ (importGraph parsed).importsOf importer)
        first last ↔
      tree.Needed roots first ∧ Relation.TransGen tree.Imports first last := by
  constructor
  · intro chain
    obtain ⟨next, edge, _⟩ := Relation.TransGen.head'_iff.mp chain
    exact ⟨(closing.mem_importsOf_iff.mp edge).1,
      Relation.TransGen.mono (fun _ _ edge => (closing.mem_importsOf_iff.mp edge).2) _ _ chain⟩
  · rintro ⟨needed, chain⟩
    suffices both : tree.Needed roots last ∧ Relation.TransGen (fun importer imported =>
        imported ∈ (importGraph parsed).importsOf importer) first last from both.2
    induction chain with
    | single imports => exact ⟨.imported needed imports, .single (closing.mem_importsOf_iff.mpr
        ⟨needed, imports⟩)⟩
    | tail _ imports ih =>
      exact ⟨.imported ih.1 imports, ih.2.tail (closing.mem_importsOf_iff.mpr ⟨ih.1, imports⟩)⟩

end Needed

end Loading

end Unclosed
