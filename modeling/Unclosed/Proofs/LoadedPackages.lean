import Mathlib.Data.List.Nodup
import Unclosed.Proofs.ParsedIdentifiers
import Unclosed.Proofs.ScanFacts
import Unclosed.Proofs.TypedPackages

/-!
The packages of a loaded program, in the order they were checked.  The numbers of
a level's packages follow those of the levels before, so the levels list all
packages in that order.  A package calls only what was declared until it was
checked, so nothing that a later package declares.
-/

namespace Unclosed

/-! ### Calls and declarations -/

namespace Package

def Calls (package : Package) (id : SymbolId) : Prop :=
  ∃ numbered ∈ package.files, ∃ func ∈ numbered.file.functions, ∃ callee ∈ func.callees,
    package.info.calleeOf numbered.id callee = some id

def Declares (package : Package) (id : SymbolId) : Prop :=
  ∃ numbered ∈ package.files, ∃ func ∈ numbered.file.functions,
    package.info.objectOf numbered.id func.name = some id

def Concerns (package : Package) (id : SymbolId) : Prop := package.Calls id ∨ package.Declares id

end Package

namespace Loading

variable {sources final : SourceMap} {files : List NumberedFile} {tree : SourceTree} {path : String}
  {package : ParsedPackage} {parsed : List ParsedPackage} {worklist patterns : List String}
  {settings : Settings} {program : Program} {checked : Checked} {id : SymbolId}

/-! ### Parsed files -/

/-- Files with different numbers, in each of which no two identifiers stand at
one place. -/
structure Numbered (files : List NumberedFile) : Prop where
  ids : (files.map NumberedFile.id).Nodup
  spans : ∀ numbered ∈ files, (numbered.file.mentions.map Mention.span).Nodup

theorem parseFiles_numbered {trees : List TreeFile}
    (parsed : parseFiles sources trees = .ok (files, final)) :
    (∀ numbered ∈ files, sources.nextId.index ≤ numbered.id.index) ∧ Numbered files := by
  induction trees generalizing sources files with
  | nil =>
    cases parsed
    exact ⟨by simp, by simp, by simp⟩
  | cons tree later ih =>
    unfold parseFiles at parsed
    dsimp only at parsed
    split at parsed
    · cases parsed
    · next file accepted =>
      cases rest : parseFiles (sources.add tree.name tree.content) later with
      | error failure =>
        rw [rest] at parsed
        cases parsed
      | ok result =>
        rw [rest] at parsed
        cases parsed
        obtain ⟨above, ids, spans⟩ := ih rest
        have next : (sources.add tree.name tree.content).nextId.index
            = sources.nextId.index + 1 := by simp [SourceMap.add, SourceMap.nextId]
        refine ⟨?_, ?_, ?_⟩
        · rintro numbered member
          rcases List.mem_cons.mp member with rfl | member
          · exact Nat.le_refl _
          · have := above numbered member
            omega
        · rw [List.map_cons, List.nodup_cons]
          refine ⟨?_, ids⟩
          intro member
          obtain ⟨numbered, inLater, same⟩ := List.mem_map.mp member
          have := above numbered inLater
          rw [same] at this
          dsimp only at this
          omega
        · exact List.forall_mem_cons.mpr ⟨Grammar.parseFile_nodup accepted, spans⟩

def siteRoles (files : List NumberedFile) : List (Site × Role) :=
  files.flatMap fun numbered => numbered.file.mentions.map fun mention =>
    (⟨numbered.id, mention.span⟩, mention.role)

def roleIn (files : List NumberedFile) (site : Site) : Role :=
  ((siteRoles files).lookup site).getD .plain

theorem lookup_of_nodup {α β : Type} [BEq α] [LawfulBEq α] {entries : List (α × β)}
    (distinct : (entries.map Prod.fst).Nodup) {key : α} {value : β}
    (member : (key, value) ∈ entries) : entries.lookup key = some value := by
  induction entries with
  | nil => cases member
  | cons entry later ih =>
    obtain ⟨first, found⟩ := entry
    rw [List.map_cons, List.nodup_cons] at distinct
    rcases List.mem_cons.mp member with same | inLater
    · cases same
      exact List.lookup_cons_self
    · have apart : key ≠ first := by
        rintro rfl
        exact distinct.1 (List.mem_map.mpr ⟨_, inLater, rfl⟩)
      rw [List.lookup_cons, beq_false_of_ne apart]
      exact ih distinct.2 inLater

theorem roleIn_mention (numbered : Numbered files) {file : NumberedFile} (inFiles : file ∈ files)
    {mention : Mention} (inFile : mention ∈ file.file.mentions) :
    roleIn files ⟨file.id, mention.span⟩ = mention.role := by
  have distinct : ((siteRoles files).map Prod.fst).Nodup := by
    have sites : (siteRoles files).map Prod.fst = files.flatMap fun numbered =>
        (numbered.file.mentions.map Mention.span).map (Site.mk numbered.id) := by
      simp [siteRoles, List.map_flatMap, Function.comp_def]
    rw [sites, List.nodup_flatMap]
    refine ⟨fun other member => (numbered.spans other member).map ?_, ?_⟩
    · intro first second same
      cases same
      rfl
    · refine (List.pairwise_map.mp numbered.ids).imp fun apart site inFirst inSecond => ?_
      obtain ⟨_, _, rfl⟩ := List.mem_map.mp inFirst
      obtain ⟨_, _, same⟩ := List.mem_map.mp inSecond
      exact apart (Site.mk.inj same).1.symm
  have listed : ((⟨file.id, mention.span⟩ : Site), mention.role) ∈ siteRoles files :=
    List.mem_flatMap.mpr ⟨file, inFiles, List.mem_map.mpr ⟨mention, inFile, rfl⟩⟩
  unfold roleIn
  rw [lookup_of_nodup distinct listed]
  rfl

theorem parsePackage_read (parsed : parsePackage tree sources path = .ok (package, final)) :
    ∃ trees isStandard files, packageFiles? tree path = some (trees, isStandard) ∧
      parseFiles sources trees = .ok (files, final) ∧
      package = ⟨path, files, ((importSpecs files).map (·.2.path)).eraseDups, isStandard⟩ := by
  unfold parsePackage at parsed
  split at parsed
  · cases parsed
  · next trees isStandard found =>
    cases files : parseFiles sources trees with
    | error failure =>
      rw [files] at parsed
      cases parsed
    | ok result =>
      rw [files] at parsed
      dsimp only [bind, Except.bind] at parsed
      split at parsed
      · cases parsed
      · cases parsed
        exact ⟨trees, isStandard, _, found, files, rfl⟩

structure ParsedOnce (parsed : List ParsedPackage) : Prop where
  paths : (parsed.map ParsedPackage.path).Nodup
  files : ∀ package ∈ parsed, Numbered package.files

theorem fresh_of_dropWhile {later : List String}
    (remaining : worklist.dropWhile (isParsed parsed) = path :: later) :
    path ∉ parsed.map ParsedPackage.path := by
  have fresh : isParsed parsed path = false := by
    have first := List.head?_dropWhile_not (isParsed parsed) worklist
    rw [remaining] at first
    simpa using first
  intro member
  obtain ⟨package, inParsed, same⟩ := List.mem_map.mp member
  unfold isParsed at fresh
  rw [List.any_eq_false] at fresh
  exact fresh package inParsed (beq_iff_eq.mpr same)

theorem parseClosure_once {bound : Nat} {all : List ParsedPackage} (once : ParsedOnce parsed)
    (accepted : parseClosure tree bound worklist parsed sources = .ok (all, final)) :
    ParsedOnce all := by
  induction bound generalizing worklist parsed sources with
  | zero =>
    cases accepted
    exact once
  | succ bound ih =>
    unfold parseClosure at accepted
    split at accepted
    · cases accepted
      exact once
    · next path later remaining =>
      cases read : parsePackage tree sources path with
      | error failure =>
        rw [read] at accepted
        cases accepted
      | ok result =>
        rw [read] at accepted
        obtain ⟨_, _, _, _, files, same⟩ := parsePackage_read read
        refine ih ⟨?_, ?_⟩ accepted
        · rw [List.map_append, List.map_singleton, same, ← List.concat_eq_append]
          exact List.Nodup.concat (fresh_of_dropWhile remaining) once.paths
        · rw [same]
          exact List.forall_mem_append.mpr
            ⟨once.files, by simpa using (parseFiles_numbered files).2⟩

/-! ### Checked packages -/

def ordered (parsed : List ParsedPackage) (levels : List (List String)) : List ParsedPackage :=
  levels.flatMap fun level => level.filterMap fun path =>
    parsed.find? fun package => package.path == path

theorem checkNext_packages (requested : List String) (checked : Checked) (package : ParsedPackage) :
    (checkNext requested checked package).packages.length = checked.packages.length + 1 := by
  simp [checkNext]

theorem foldl_checkNext_length (requested : List String) (order : List ParsedPackage)
    (checked : Checked) :
    (order.foldl (checkNext requested) checked).packages.length
      = checked.packages.length + order.length := by
  induction order generalizing checked with
  | nil => rfl
  | cons package later ih =>
    rw [List.foldl_cons, ih, checkNext_packages, List.length_cons]
    omega

/-- Checking levels is checking their packages one after another, and the levels
number the packages in that order. -/
theorem checkLevels_eq (requested : List String) (parsed : List ParsedPackage)
    (levels : List (List String)) (checked : Checked) :
    (checkLevels requested parsed levels checked).2 =
        (ordered parsed levels).foldl (checkNext requested) checked ∧
      (checkLevels requested parsed levels checked).1.flatten =
        List.range' checked.packages.length (ordered parsed levels).length := by
  induction levels generalizing checked with
  | nil => exact ⟨rfl, rfl⟩
  | cons level later ih =>
    obtain ⟨sameChecked, numbers⟩ :=
      ih (checkLevel requested parsed checked level)
    have split : ordered parsed (level :: later) =
        (level.filterMap fun path => parsed.find? fun package => package.path == path)
          ++ ordered parsed later := by
      simp only [ordered, List.flatMap_cons]
    have count : (checkLevel requested parsed checked level).packages.length =
        checked.packages.length + (level.filterMap fun path =>
          parsed.find? fun package => package.path == path).length :=
      foldl_checkNext_length requested _ checked
    rw [split, List.foldl_append, List.length_append, ← List.range'_append_1]
    refine ⟨sameChecked, ?_⟩
    rw [count] at numbers
    rw [checkLevels, List.flatten_cons, numbers, count, Nat.add_sub_cancel_left,
      ← List.range'_eq_map_range]

theorem loadProgram_steps (loaded : loadProgram settings tree patterns = .ok program) :
    ∃ package interface requested parsed,
      settings.analysis.interfaceParts? = some (package, interface) ∧
      tree.expand patterns = .ok requested ∧
      parseClosure tree (closureBound tree) (requested ++ [package]) [] .empty =
        .ok (parsed, program.sources) ∧
      (importGraph parsed).cycles = [] ∧
      checkLevels requested parsed (importGraph parsed).levels
          ⟨Universe.initialTypes, Universe.initialSymbols, []⟩ =
        (program.levels, ⟨program.types, program.symbols, program.packages⟩) ∧
      interface? ⟨program.types, program.symbols, program.packages⟩ package interface =
        some program.closer := by
  unfold loadProgram at loaded
  dsimp only at loaded
  split at loaded
  · next package interface parts =>
    cases expanded : tree.expand patterns with
    | error error =>
      rw [expanded] at loaded
      cases loaded
    | ok requested =>
      rw [expanded] at loaded
      change (if isKnown tree package = true then _ else _) = _ at loaded
      split at loaded
      · cases closure : parseClosure tree (closureBound tree) (requested ++ [package]) [] .empty with
        | error failure =>
          rw [closure] at loaded
          cases loaded
        | ok result =>
          rw [closure] at loaded
          dsimp only [bind, Except.bind] at loaded
          cases cycles : (importGraph result.1).cycles with
          | cons cycle others =>
            rw [cycles] at loaded
            cases loaded
          | nil =>
            rw [cycles] at loaded
            dsimp only at loaded
            split at loaded
            · next closer found =>
              cases loaded
              exact ⟨package, interface, requested, result.1, parts, rfl, closure, cycles, rfl,
                found⟩
            · cases loaded
      · cases loaded
  · cases loaded

theorem loadProgram_cases (loaded : loadProgram settings tree patterns = .ok program) :
    ∃ requested parsed, ParsedOnce parsed ∧ (importGraph parsed).cycles = [] ∧
      checkLevels requested parsed (importGraph parsed).levels
          ⟨Universe.initialTypes, Universe.initialSymbols, []⟩ =
        (program.levels, ⟨program.types, program.symbols, program.packages⟩) := by
  obtain ⟨_, _, requested, parsed, _, _, closure, cycles, checked, _⟩ := loadProgram_steps loaded
  exact ⟨requested, parsed, parseClosure_once ⟨by simp, by simp⟩ closure, cycles, checked⟩

def startOf (checked : Checked) : TypingState :=
  ⟨checked.types, checked.symbols, .empty, [], none⟩

structure PackageCheck where
  horizon : Horizon
  final : TypingState
  package : Package

structure PackageCheck.Sound (check : PackageCheck) : Prop where
  edits : Edits check.horizon
    ⟨check.horizon.types, check.horizon.symbols, .empty, [], none⟩ check.final
  confined : Confined check.horizon check.final
  info : check.package.info = check.final.info
  path : check.package.path = check.horizon.package
  names : check.horizon.Binds check.final.symbols.size check.package.names
  roles : ∀ numbered ∈ check.package.files, ∀ mention ∈ numbered.file.mentions,
    check.horizon.role ⟨numbered.id, mention.span⟩ = mention.role
  covers : ∀ numbered ∈ check.package.files, ∀ func ∈ numbered.file.functions,
    check.final.info.CoversBody numbered.id func

/-- What a horizon has to offer to a package that comes next. -/
structure Fits (horizon : Horizon) (checked : Checked) (package : ParsedPackage) : Prop where
  path : horizon.package = package.path
  types : horizon.types = checked.types
  symbols : horizon.symbols = checked.symbols
  role : horizon.role = roleIn package.files
  confined : Confined horizon (startOf checked)
  imported : ∀ other ∈ checked.packages, package.imports.contains other.path = true →
    horizon.Binds checked.symbols.size other.names
  predeclared : ∀ id : SymbolId, id.index < Universe.initialSymbols.size →
    horizon.Reaches checked.symbols.size id

theorem checkNext_sound {horizon : Horizon} (fits : Fits horizon checked package)
    (numbered : Numbered package.files) (requested : List String) :
    ∃ check : PackageCheck, check.Sound ∧ check.horizon = horizon ∧
      check.package.files = package.files ∧ check.package.imports = package.imports ∧
      checkNext requested checked package =
        ⟨check.final.types, check.final.symbols, checked.packages ++ [check.package]⟩ := by
  have roles : ∀ file ∈ package.files, ∀ mention ∈ file.file.mentions,
      horizon.role ⟨file.id, mention.span⟩ = mention.role := by
    intro file inFiles mention inFile
    rw [fits.role]
    exact roleIn_mention numbered inFiles inFile
  have around : Typing.Surroundings horizon ((checked.packages.filter fun other =>
      package.imports.contains other.path).map fun other => (other.path, other.names))
      package.files (startOf checked).symbols.size :=
    { imported := by
        intro entry member
        obtain ⟨other, inPackages, rfl⟩ := List.mem_map.mp member
        obtain ⟨inPackages, imported⟩ := List.mem_filter.mp inPackages
        exact fits.imported other inPackages imported
      predeclared := fits.predeclared
      predeclaredTypes := fits.confined.closed.predeclared
      roles }
  obtain ⟨edits, binds, covers⟩ := Typing.checkFiles_proceeds around (startOf checked) (.refl _)
    fits.confined
  rw [fits.path] at edits binds covers
  refine ⟨⟨horizon, _, _⟩, ⟨?_, edits.confined fits.confined, ?_, ?_, ?_, ?_, ?_⟩, rfl, ?_, ?_, rfl⟩
  · rw [fits.types, fits.symbols]
    exact edits
  · rfl
  · exact fits.path.symm
  · exact binds
  · exact roles
  · exact covers
  · rfl
  · rfl

namespace PackageCheck.Sound

variable {check : PackageCheck} (sound : check.Sound)

include sound

theorem calls_reaches (calls : check.package.Calls id) :
    check.horizon.Reaches check.final.symbols.size id := by
  obtain ⟨numbered, _, func, _, callee, _, found⟩ := calls
  rw [sound.info] at found
  unfold TypeInfo.calleeOf at found
  split at found
  · exact (sound.confined.uses _ id (Horizon.mem_of_lookup found)).1
  · split at found
    · next selected =>
      cases found
      exact (sound.confined.selections _ _ (Horizon.mem_of_lookup selected)).1
    · next selected =>
      cases found
      exact sound.confined.selections _ _ (Horizon.mem_of_lookup selected)
    · cases found
  · cases found

theorem objectOf_reaches {file : FileId} {ident : Ident}
    (found : check.package.info.objectOf file ident = some id) :
    id.index < check.final.symbols.size := by
  rw [sound.info] at found
  unfold TypeInfo.objectOf at found
  split at found
  · next defined =>
    cases found
    exact (sound.confined.defs _ id (Horizon.mem_of_lookup defined)).2
  · exact (sound.confined.uses _ id (Horizon.mem_of_lookup found)).1.1

theorem declares_own (declares : check.package.Declares id) :
    check.horizon.symbols.size ≤ id.index ∧ id.index < check.final.symbols.size := by
  obtain ⟨numbered, inFiles, func, inFile, found⟩ := declares
  have role : check.horizon.role ⟨numbered.id, func.name.span⟩ = .function := by
    obtain ⟨decl, inDecls, same⟩ := List.mem_filterMap.mp inFile
    cases decl with
    | decl other => cases same
    | func other =>
      cases same
      exact sound.roles numbered inFiles ⟨func.name, .function⟩ (List.mem_append_right _
        (List.mem_flatMap.mpr ⟨.func func, inDecls, by simp [TopLevel.mentions, FuncDecl.mentions]⟩))
  rw [sound.info] at found
  unfold TypeInfo.objectOf at found
  split at found
  · next defined =>
    cases found
    exact sound.confined.defs _ id (Horizon.mem_of_lookup defined)
  · exact absurd role (sound.confined.uses _ id (Horizon.mem_of_lookup found)).2

end PackageCheck.Sound

/-! ### Order -/

/-- The packages checked so far use only what is declared so far, the records
cover their function bodies, and no package calls or declares what a later one
declares. -/
structure Checked.Ordered (checked : Checked) : Prop where
  predeclared : Universe.initialSymbols.size ≤ checked.symbols.size
  methods : ∀ type, ∀ method ∈ (checked.types.get type).methods,
    method.symbol.index < checked.symbols.size
  names : ∀ package ∈ checked.packages, ∀ entry ∈ package.names,
    entry.2.index < checked.symbols.size
  objects : ∀ package ∈ checked.packages, ∀ file ident id,
    package.info.objectOf file ident = some id → id.index < checked.symbols.size
  covers : ∀ package ∈ checked.packages, ∀ numbered ∈ package.files,
    ∀ func ∈ numbered.file.functions, package.info.CoversBody numbered.id func
  concerns : ∀ package ∈ checked.packages, ∀ id, package.Concerns id →
    id.index < checked.symbols.size
  apart : checked.packages.Pairwise fun earlier later =>
    ∀ id, earlier.Concerns id → ¬later.Declares id

def openHorizon (checked : Checked) (package : ParsedPackage) : Horizon :=
  ⟨package.path, checked.types, checked.symbols, fun _ => True, fun _ => True, roleIn package.files⟩

theorem openHorizon_fits (ordered : checked.Ordered) (package : ParsedPackage) :
    Fits (openHorizon checked package) checked package where
  path := rfl
  types := rfl
  symbols := rfl
  role := rfl
  confined :=
    { types_le := Nat.le_refl _
      symbols_le := Nat.le_refl _
      closed := ⟨fun _ _ _ _ => .inr trivial, fun _ _ => .inr trivial,
        fun _ _ _ _ => .inr trivial, fun _ _ _ _ => .inr trivial⟩
      methods := fun type _ method member => ⟨ordered.methods type method member, .inr trivial⟩
      symbolTypes := fun _ _ _ _ => .inr trivial
      defs := by simp [startOf, TypeInfo.empty, SiteMap.empty]
      newTypes := by simp [startOf, TypeInfo.empty, SiteMap.empty]
      apart := by simp [startOf, TypeInfo.empty, SiteMap.empty]
      uses := by simp [startOf, TypeInfo.empty, SiteMap.empty]
      selections := by simp [startOf, TypeInfo.empty, SiteMap.empty] }
  imported := fun other member _ entry inNames =>
    ⟨ordered.names other member entry inNames, .inr trivial⟩
  predeclared := fun id lt => ⟨Nat.lt_of_lt_of_le lt ordered.predeclared, .inr trivial⟩

theorem checkNext_ordered (ordered : checked.Ordered) (numbered : Numbered package.files)
    (requested : List String) :
    (checkNext requested checked package).Ordered := by
  obtain ⟨check, sound, same, _, _, result⟩ :=
    checkNext_sound (openHorizon_fits ordered package) numbered requested
  have grows : checked.symbols.size ≤ check.final.symbols.size := by
    have := sound.edits.symbols_le
    rwa [same] at this
  rw [result]
  refine ⟨Nat.le_trans ordered.predeclared grows, ?_, ?_, ?_, ?_, ?_, ?_⟩
  · intro type method member
    exact (sound.confined.methods type (by rw [same]; exact .inr trivial) method member).1
  · refine List.forall_mem_append.mpr ⟨?_, ?_⟩
    · intro other member entry inNames
      exact Nat.lt_of_lt_of_le (ordered.names other member entry inNames) grows
    · simpa using fun name id member => (sound.names (name, id) member).1
  · refine List.forall_mem_append.mpr ⟨?_, ?_⟩
    · intro other member file ident id found
      exact Nat.lt_of_lt_of_le (ordered.objects other member file ident id found) grows
    · simpa using fun file ident id found => sound.objectOf_reaches found
  · refine List.forall_mem_append.mpr ⟨ordered.covers, ?_⟩
    simpa [sound.info] using sound.covers
  · refine List.forall_mem_append.mpr ⟨?_, ?_⟩
    · intro other member id concerns
      exact Nat.lt_of_lt_of_le (ordered.concerns other member id concerns) grows
    · simpa using fun id concerns => concerns.elim (fun calls => (sound.calls_reaches calls).1)
        fun declares => (sound.declares_own declares).2
  · refine List.pairwise_append.mpr ⟨ordered.apart, by simp, ?_⟩
    intro earlier member later isLast id concerns declares
    rw [List.mem_singleton] at isLast
    subst isLast
    have start := (sound.declares_own declares).1
    rw [same] at start
    exact absurd (ordered.concerns earlier member id concerns) (Nat.not_lt_of_le start)

theorem initially_ordered :
    Checked.Ordered ⟨Universe.initialTypes, Universe.initialSymbols, []⟩ where
  predeclared := Nat.le_refl _
  methods := by
    have bare : ∀ kind ∈ Universe.initialTypes.kinds.toList, kind.methods = [] := by decide
    intro type method member
    unfold TypeTable.get at member
    cases found : Universe.initialTypes.kinds[type.index]? with
    | none =>
      rw [found] at member
      cases member
    | some kind =>
      rw [found, Option.getD_some, bare kind (by simpa using Array.mem_of_getElem? found)] at member
      cases member
  names := by simp
  objects := by simp
  covers := by simp
  concerns := by simp
  apart := .nil

theorem foldl_checkNext_ordered {order : List ParsedPackage}
    (numbered : ∀ package ∈ order, Numbered package.files) (requested : List String)
    (ordered : checked.Ordered) :
    (order.foldl (checkNext requested) checked).Ordered := by
  induction order generalizing checked with
  | nil => exact ordered
  | cons package later ih =>
    rw [List.forall_mem_cons] at numbered
    exact ih numbered.2 (checkNext_ordered ordered numbered.1 requested)

theorem numbered_of_mem_ordered (once : ParsedOnce parsed) (levels : List (List String)) :
    ∀ package ∈ ordered parsed levels, Numbered package.files := by
  intro package member
  obtain ⟨level, _, inLevel⟩ := List.mem_flatMap.mp member
  obtain ⟨path, _, found⟩ := List.mem_filterMap.mp inLevel
  exact once.files package (List.mem_of_find?_eq_some found)

end Loading

namespace Program

variable {settings : Settings} {tree : SourceTree} {patterns : List String} {program : Program}

variable (loaded : loadProgram settings tree patterns = .ok program)
include loaded

theorem checked_ordered :
    Loading.Checked.Ordered ⟨program.types, program.symbols, program.packages⟩ := by
  obtain ⟨requested, parsed, once, _, checked⟩ := Loading.loadProgram_cases loaded
  have final := (Loading.checkLevels_eq requested parsed (Loading.importGraph parsed).levels
    ⟨Universe.initialTypes, Universe.initialSymbols, []⟩).1
  rw [checked] at final
  have ordered := Loading.foldl_checkNext_ordered
    (Loading.numbered_of_mem_ordered once (Loading.importGraph parsed).levels) requested
    Loading.initially_ordered
  rw [← final] at ordered
  exact ordered

/-- No package calls or declares what a later one declares. -/
theorem concerns_apart :
    program.packages.Pairwise fun earlier later =>
      ∀ id, earlier.Concerns id → ¬later.Declares id :=
  (checked_ordered loaded).apart

theorem levels_flatten : program.levels.flatten = List.range program.packages.length := by
  obtain ⟨requested, parsed, once, _, checked⟩ := Loading.loadProgram_cases loaded
  obtain ⟨final, numbers⟩ := Loading.checkLevels_eq requested parsed
    (Loading.importGraph parsed).levels ⟨Universe.initialTypes, Universe.initialSymbols, []⟩
  rw [checked] at final numbers
  have count := Loading.foldl_checkNext_length requested
    (Loading.ordered parsed (Loading.importGraph parsed).levels)
    ⟨Universe.initialTypes, Universe.initialSymbols, []⟩
  rw [← final] at count
  rw [numbers, List.range_eq_range', count]
  simp

end Program

end Unclosed
