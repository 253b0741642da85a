import Unclosed.Proofs.NeededPackages
import Unclosed.Proofs.PackagePatterns

/-!
What a load gives.  A loaded program has exactly the needed packages, each once and
behind all that it imports, and the levels number them in order.  With all files and
imports in order, a load reports an import cycle if and only if there is one.
-/

namespace Unclosed

variable {levels : List (List String)} {tree : SourceTree} {path package : String}

namespace Package

def parsed (package : Package) : Loading.ParsedPackage :=
  ⟨package.path, package.files, package.imports, package.isStandard⟩

end Package

namespace Loading

variable {parsed : List ParsedPackage} (requested : List String)

/-! ### Checked packages -/

theorem checkNext_parsed (checked : Checked) (package : ParsedPackage) :
    (checkNext requested checked package).packages.map Package.parsed =
      checked.packages.map Package.parsed ++ [package] := by
  simp [checkNext, Package.parsed]

theorem foldl_checkNext_parsed (order : List ParsedPackage) (checked : Checked) :
    (order.foldl (checkNext requested) checked).packages.map Package.parsed =
      checked.packages.map Package.parsed ++ order := by
  induction order generalizing checked with
  | nil => simp
  | cons package later ih =>
    rw [List.foldl_cons, ih, checkNext_parsed, List.append_assoc, List.singleton_append]

theorem foldl_checkNext_requested (order : List ParsedPackage) {checked : Checked}
    (before : ∀ package ∈ checked.packages, package.requested = requested.contains package.path) :
    ∀ package ∈ (order.foldl (checkNext requested) checked).packages,
      package.requested = requested.contains package.path := by
  induction order generalizing checked with
  | nil => exact before
  | cons package later ih =>
    refine ih (List.forall_mem_append.mpr ⟨before, ?_⟩)
    exact (List.forall_mem_singleton).mpr rfl

theorem level_paths {level : List String}
    (known : ∀ path ∈ level, path ∈ parsed.map ParsedPackage.path) :
    (level.filterMap fun path => parsed.find? fun package => package.path == path).map
      ParsedPackage.path = level := by
  induction level with
  | nil => rfl
  | cons path later ih =>
    rw [List.forall_mem_cons] at known
    obtain ⟨package, inParsed, same⟩ := List.mem_map.mp known.1
    cases found : parsed.find? fun package => package.path == path with
    | none =>
      rw [List.find?_eq_none] at found
      exact absurd (beq_iff_eq.mpr same) (found package inParsed)
    | some first =>
      have samePath : first.path = path := by simpa using List.find?_some found
      simp only [List.filterMap_cons, found, List.map_cons, samePath, ih known.2]

theorem ordered_paths (known : ∀ path ∈ levels.flatten, path ∈ parsed.map ParsedPackage.path) :
    (ordered parsed levels).map ParsedPackage.path = levels.flatten := by
  induction levels with
  | nil => rfl
  | cons level later ih =>
    rw [List.flatten_cons, List.forall_mem_append] at known
    unfold ordered at *
    rw [List.flatMap_cons, List.map_append, level_paths known.1, ih known.2, List.flatten_cons]

theorem filterMap_range'_getElem? {α : Type} (before here after : List α) :
    (List.range' before.length here.length).filterMap (fun index =>
      (before ++ (here ++ after))[index]?) = here := by
  induction here generalizing before with
  | nil => rfl
  | cons first later ih =>
    have next := ih (before ++ [first])
    rw [List.length_append, List.length_singleton, List.append_assoc] at next
    rw [List.length_cons, List.range'_succ, List.filterMap_cons_some (b := first) (by simp)]
    exact congrArg (first :: ·) next

/-- The numbers of a level are the places of its packages. -/
theorem checkLevels_numbers (checked : Checked) (before : List String)
    (known : ∀ path ∈ levels.flatten, path ∈ parsed.map ParsedPackage.path)
    (length : checked.packages.length = before.length) :
    (checkLevels requested parsed levels checked).1.map (fun level =>
      level.filterMap fun index => (before ++ levels.flatten)[index]?) = levels := by
  induction levels generalizing checked before with
  | nil => rfl
  | cons level later ih =>
    rw [List.flatten_cons, List.forall_mem_append] at known
    have count : (checkLevel requested parsed checked level).packages.length =
        (before ++ level).length := by
      unfold checkLevel
      rw [foldl_checkNext_length, length, List.length_append, ← level_paths known.1,
        List.length_map, level_paths known.1]
    have rest := ih (checkLevel requested parsed checked level) _ known.2 count
    rw [checkLevels, List.map_cons, count, length, List.length_append, Nat.add_sub_cancel_left,
      ← List.range'_eq_map_range, List.flatten_cons,
      filterMap_range'_getElem?]
    rw [List.append_assoc] at rest
    rw [rest]

def initially : Checked := ⟨Universe.initialTypes, Universe.initialSymbols, []⟩

section Levels

variable (requested : List String) (parsed : List ParsedPackage) (levels : List (List String))

theorem checkLevels_parsed :
    (checkLevels requested parsed levels initially).2.packages.map Package.parsed =
      ordered parsed levels := by
  rw [(checkLevels_eq requested parsed levels initially).1, foldl_checkNext_parsed]
  rfl

theorem checkLevels_requested :
    ∀ package ∈ (checkLevels requested parsed levels initially).2.packages,
      package.requested = requested.contains package.path := by
  rw [(checkLevels_eq requested parsed levels initially).1]
  exact foldl_checkNext_requested requested (ordered parsed levels) (by simp [initially])

theorem checkLevels_subset :
    ∀ package ∈ (checkLevels requested parsed levels initially).2.packages,
      package.parsed ∈ parsed := by
  intro package member
  have listed : package.parsed ∈ ordered parsed levels := by
    rw [← checkLevels_parsed requested]
    exact List.mem_map_of_mem member
  obtain ⟨level, _, inLevel⟩ := List.mem_flatMap.mp listed
  obtain ⟨path, _, found⟩ := List.mem_filterMap.mp inLevel
  exact List.mem_of_find?_eq_some found

variable {parsed levels}
variable (known : ∀ path ∈ levels.flatten, path ∈ parsed.map ParsedPackage.path)

include known

theorem checkLevels_paths :
    (checkLevels requested parsed levels initially).2.packages.map Package.path =
      levels.flatten := by
  rw [← ordered_paths known, ← checkLevels_parsed requested, List.map_map]
  rfl

/-- Read back through the numbers, the levels are those that were checked. -/
theorem checkLevels_levels :
    (checkLevels requested parsed levels initially).1.map (fun level =>
      (level.filterMap fun index =>
        (checkLevels requested parsed levels initially).2.packages[index]?).map Package.path) =
      levels := by
  have numbers := checkLevels_numbers requested initially [] known rfl
  rw [List.nil_append, ← checkLevels_paths requested known] at numbers
  simpa only [List.map_filterMap, List.getElem?_map] using numbers

end Levels

/-! ### Failed loads -/

theorem known_of_mem_paths (member : path ∈ tree.paths) : tree.Known path := by
  obtain ⟨files, found⟩ := OrderedMap.mem_keys_iff.mp member
  cases standard : StandardPackage.find? path with
  | none => exact ⟨files, false, .directory standard found⟩
  | some package => exact ⟨_, true, .standard standard⟩

/-- Once all is parsed, a load reports a cycle if the search finds one. -/
theorem loadProgram_importCycle_iff {settings : Settings} {patterns requested : List String}
    {interface : String} {sources : SourceMap}
    (parts : settings.analysis.interfaceParts? = some (package, interface))
    (expanded : tree.expand patterns = .ok requested) (known : isKnown tree package = true)
    (closure : parseClosure tree (closureBound tree) (requested ++ [package]) [] .empty = .ok
      (parsed, sources)) :
    (∃ cycle sources, loadProgram settings tree patterns = .error ⟨.importCycle cycle, sources⟩) ↔
      (importGraph parsed).cycles ≠ [] := by
  unfold loadProgram
  simp only [parts, expanded, known, closure, bind, Except.bind, pure, Except.pure, if_true]
  cases cycles : (importGraph parsed).cycles with
  | nil =>
    refine iff_of_false ?_ fun reported => reported rfl
    rintro ⟨cycle, final, failed⟩
    dsimp only at failed
    split at failed
    · cases failed
    · cases failed
  | cons cycle others => exact iff_of_true ⟨cycle, sources, rfl⟩ (List.cons_ne_nil _ _)

end Loading

/-! ### Programs -/

namespace Program

structure Complete (program : Program) (tree : SourceTree) (requested : List String)
    (package : String) : Prop where
  distinct : (program.packages.map Package.path).Nodup
  needed : ∀ path, path ∈ program.packages.map Package.path ↔
    tree.Needed (requested ++ [package]) path
  read : ∀ package ∈ program.packages, Loading.ReadFrom tree package.parsed
  requested : ∀ package ∈ program.packages, package.requested = requested.contains package.path
  /-- The levels number the packages in order. -/
  levels : program.levels.flatten = List.range program.packages.length
  /-- Each import is a package of an earlier level. -/
  imports : ∀ (index : Nat) level, program.levels[index]? = some level →
    ∀ package ∈ program.levelPackages level, ∀ imported ∈ package.imports,
      ∃ earlier < index, ∃ there, program.levels[earlier]? = some there ∧
        ∃ other ∈ program.levelPackages there, other.path = imported
  closer : program.types.isInterface program.closer = true

variable {settings : Settings} {tree : SourceTree} {patterns : List String} {program : Program}

theorem isInterface_of_interface? {checked : Loading.Checked} {name : String} {found : TypeId}
    (interface : Loading.interface? checked package name = some found) :
    checked.types.isInterface found = true := by
  unfold Loading.interface? at interface
  simp only [Option.bind_eq_bind, Option.bind_eq_some_iff] at interface
  obtain ⟨owner, _, id, _, symbol, _, chosen⟩ := interface
  split at chosen
  · next isInterface =>
    cases chosen
    exact (Bool.and_eq_true_iff.mp isInterface).2
  · cases chosen

theorem complete_of_load (loaded : loadProgram settings tree patterns = .ok program) :
    ∃ package interface requested,
      settings.analysis.interfaceParts? = some (package, interface) ∧
      tree.expand patterns = .ok requested ∧ program.Complete tree requested package := by
  obtain ⟨package, interface, requested, parsed, parts, expanded, closure, cycles, checked, closer⟩ :=
    Loading.loadProgram_steps loaded
  have closing := Loading.parseClosure_all closure
  have draws := Loading.importGraph_draws parsed
  -- Without a cycle no package is left out of the levels.
  have placed : ∀ path, path ∈ (Loading.importGraph parsed).levels.flatten ↔
      tree.Needed (requested ++ [package]) path := by
    intro path
    rw [← closing.mem_packages_iff]
    exact ⟨ImportGraph.levels_known draws.formed path, fun known =>
      ImportGraph.mem_levels_of_acc draws.formed
        (ImportGraph.ends_of_cycles_eq_nil draws.formed cycles known) known⟩
  have known : ∀ path ∈ (Loading.importGraph parsed).levels.flatten,
      path ∈ parsed.map Loading.ParsedPackage.path :=
    fun path member => closing.mem_paths_iff.mpr ((placed path).mp member)
  have paths := Loading.checkLevels_paths requested known
  have levels := Loading.checkLevels_levels requested known
  have isRequested := Loading.checkLevels_requested requested parsed
    (Loading.importGraph parsed).levels
  have inParsed := Loading.checkLevels_subset requested parsed (Loading.importGraph parsed).levels
  unfold Loading.initially at paths levels isRequested inParsed
  rw [checked] at paths levels isRequested inParsed
  refine ⟨package, interface, requested, parts, expanded, ?_⟩
  refine ⟨?_, ?_, ?_, isRequested, levels_flatten loaded, ?_, isInterface_of_interface? closer⟩
  · rw [paths]
    exact ImportGraph.levels_distinct draws.formed
  · intro path
    rw [paths, placed]
  · exact fun package member => closing.read _ (inParsed package member)
  · intro index level found package member imported isImport
    have here : (Loading.importGraph parsed).levels[index]? =
        some ((program.levelPackages level).map Package.path) := by
      rw [← levels, List.getElem?_map, found]
      rfl
    have edge : imported ∈ (Loading.importGraph parsed).importsOf package.path := by
      obtain ⟨place, _, isPlace⟩ := List.mem_filterMap.mp member
      exact (draws.imports _ _).mpr
        ⟨package.parsed, inParsed package (List.mem_of_getElem? isPlace), rfl, isImport⟩
    obtain ⟨earlier, before, there, foundThere, inThere⟩ :=
      ImportGraph.levels_earlier draws.formed here (List.mem_map_of_mem member) edge
    rw [← levels, List.getElem?_map] at foundThere
    obtain ⟨numbers, foundNumbers, rfl⟩ := Option.map_eq_some_iff.mp foundThere
    obtain ⟨other, inLevel, same⟩ := List.mem_map.mp inThere
    exact ⟨earlier, before, numbers, foundNumbers, other, inLevel, same⟩

/-- A loaded program is complete, and where all files and imports are in order a load reports a
cycle of imports if and only if there is one. -/
theorem loadProgram_complete (settings : Settings) (tree : SourceTree) (patterns : List String) :
    (∀ program, loadProgram settings tree patterns = .ok program →
      ∃ package interface requested,
        settings.analysis.interfaceParts? = some (package, interface) ∧
        tree.expand patterns = .ok requested ∧ program.Complete tree requested package) ∧
    ∀ package interface requested,
      settings.analysis.interfaceParts? = some (package, interface) → tree.Known package →
      tree.expand patterns = .ok requested →
      (∀ path, tree.Needed (requested ++ [package]) path →
        tree.Parses path ∧ ∀ imported, tree.Imports path imported → tree.Known imported) →
      ((∃ cycle sources,
          loadProgram settings tree patterns = .error ⟨.importCycle cycle, sources⟩) ↔
        ∃ path, tree.Needed (requested ++ [package]) path ∧
          Relation.TransGen tree.Imports path path) := by
  refine ⟨fun program loaded => complete_of_load loaded, ?_⟩
  intro package interface requested parts known expanded inOrder
  have allKnown : ∀ path, tree.Needed (requested ++ [package]) path → tree.Known path := by
    intro path needed
    cases needed with
    | root member =>
      rcases List.mem_append.mp member with isRequested | isPackage
      · exact Loading.known_of_mem_paths (SourceTree.expand_subset expanded isRequested)
      · rw [List.mem_singleton] at isPackage
        exact isPackage ▸ known
    | imported needed imports => exact (inOrder _ needed).2 path imports
  obtain ⟨⟨parsed, sources⟩, closure⟩ := Loading.parseClosure_ok (Loading.closureBound tree) .empty
    (.initially tree (requested ++ [package])) allKnown fun path needed => (inOrder path needed).1
  have closing := Loading.parseClosure_all closure
  rw [Loading.loadProgram_importCycle_iff parts expanded (Loading.isKnown_iff.mpr known) closure,
    ImportGraph.cycles_ne_nil_iff (Loading.importGraph_draws parsed).formed]
  exact exists_congr fun path => closing.transGen_importsOf_iff

def chainTree : SourceTree :=
  .addFile (.addFile .empty "a" "a.go" "package a\ntype C interface\x7bClose()\x7d")
    "b" "b.go" "package b\nimport q \"a\""

def selfFile : TreeFile :=
  ⟨"a/a.go", "package a\nimport \"a\"\ntype C interface\x7bClose()\x7d"⟩

def selfTree : SourceTree := ⟨⟨[("a", [selfFile])]⟩⟩

theorem selfTree_provides : selfTree.Provides "a" [selfFile] false := by
  have absent : (StandardPackage.find? "a").isNone = true := by decide +kernel
  exact .directory (by simpa using absent) rfl

theorem selfFile_parses : ∃ parsed,
    Grammar.parseFile selfFile.name selfFile.content = .ok parsed ∧
      parsed.imports.map ImportSpec.path = ["a"] := by
  have read : ((Grammar.parseFile selfFile.name selfFile.content).toOption.map fun parsed =>
      parsed.imports.map ImportSpec.path) = some ["a"] := by decide +kernel
  cases parse : Grammar.parseFile selfFile.name selfFile.content with
  | error error => simp [parse, Except.toOption] at read
  | ok parsed => exact ⟨parsed, rfl, by simpa [parse, Except.toOption] using read⟩

theorem selfTree_imports_iff {imported : String} :
    selfTree.Imports "a" imported ↔ imported = "a" := by
  obtain ⟨parsed, parse, paths⟩ := selfFile_parses
  have only : ∀ path, (∃ spec ∈ parsed.imports, spec.path = path) ↔ path = "a" := by
    intro path
    rw [← List.mem_map, paths, List.mem_singleton]
  constructor
  · rintro ⟨files, isStandard, provides, file, inFiles, other, parseOther, found⟩
    obtain ⟨rfl, rfl⟩ := Loading.provides_unique selfTree_provides provides
    rw [List.mem_singleton] at inFiles
    subst inFiles
    rw [parse] at parseOther
    cases parseOther
    exact (only imported).mp found
  · intro same
    exact ⟨_, _, selfTree_provides, selfFile, by simp, parsed, parse, (only imported).mpr same⟩

theorem selfTree_needed (needed : selfTree.Needed ["a", "a"] path) : path = "a" := by
  induction needed with
  | root member => simpa using member
  | imported _ imports ih =>
    rw [ih] at imports
    exact selfTree_imports_iff.mp imports

theorem selfTree_parses : selfTree.Parses "a" := by
  intro files isStandard provides file inFiles
  obtain ⟨rfl, rfl⟩ := Loading.provides_unique selfTree_provides provides
  rw [List.mem_singleton] at inFiles
  subst inFiles
  obtain ⟨parsed, parse, _⟩ := selfFile_parses
  exact ⟨parsed, parse⟩

def closerSettings : Settings := { analysis := { disposableInterface := "a.C" } }

/-- A chain of imports can be loaded, and a package that imports itself is a cycle. -/
theorem chain_self_loadProgram_complete :
    (∃ program, loadProgram closerSettings chainTree ["b"] = .ok program ∧
      program.levels = [[0], [1]] ∧ program.Complete chainTree ["b"] "a") ∧
    ∃ cycle sources,
      loadProgram closerSettings selfTree [] = .error ⟨.importCycle cycle, sources⟩ := by
  have parts : closerSettings.analysis.interfaceParts? = some ("a", "C") := by decide +kernel
  constructor
  · have levels : (loadProgram closerSettings chainTree ["b"]).toOption.map Program.levels =
        some [[0], [1]] := by decide +kernel
    have selected : (chainTree.expand ["b"]).toOption = some ["b"] := by decide +kernel
    cases loaded : loadProgram closerSettings chainTree ["b"] with
    | error failure =>
      rw [loaded] at levels
      cases levels
    | ok program =>
      rw [loaded] at levels
      obtain ⟨package, interface, requested, qualified, expanded, complete⟩ :=
        (loadProgram_complete closerSettings chainTree ["b"]).1 program loaded
      rw [parts] at qualified
      cases qualified
      rw [expanded] at selected
      cases selected
      exact ⟨program, rfl, Option.some.inj levels, complete⟩
  · have expanded : selfTree.expand [] = .ok ["a"] := rfl
    refine ((loadProgram_complete closerSettings selfTree []).2 "a" "C" ["a"] parts
      ⟨_, _, selfTree_provides⟩ expanded fun path needed => ?_).mpr
        ⟨"a", .root (by simp), .single (selfTree_imports_iff.mpr rfl)⟩
    rw [selfTree_needed needed]
    refine ⟨selfTree_parses, fun imported imports => ?_⟩
    rw [selfTree_imports_iff.mp imports]
    exact ⟨_, _, selfTree_provides⟩

end Program

end Unclosed
