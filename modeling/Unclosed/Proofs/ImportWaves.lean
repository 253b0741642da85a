import Unclosed.Proofs.ImportCycles

/-!
What the analysis of an import graph says about the calls that built the graph.  The
level of a package is the length of the longest chain of imports that starts at it, and
a package without a level reaches a cycle.  Reported cycles go around once.
-/

namespace Unclosed.ImportGraph

open Relation

/-! ### Built graphs -/

inductive Addition where
  | package (path : String)
  | imports (importer imported : String)

def Addition.paths : Addition → List String
  | package path => [path]
  | imports importer imported => [importer, imported]

def add (graph : ImportGraph) : Addition → ImportGraph
  | .package path => graph.addPackage path
  | .imports importer imported => graph.addImport importer imported

variable (additions : List Addition)

def build : ImportGraph := additions.foldl add .empty

def Records (importer imported : String) : Prop :=
  .imports importer imported ∈ additions

theorem add_wellFormed {graph : ImportGraph} (formed : graph.WellFormed) (addition : Addition) :
    (graph.add addition).WellFormed := by
  cases addition with
  | package path => exact formed.addPackage path
  | imports importer imported => exact formed.addImport importer imported

theorem build_wellFormed : (build additions).WellFormed :=
  List.foldlRecOn (motive := WellFormed) additions add .empty fun _ formed addition _ =>
    add_wellFormed formed addition

theorem mem_importsOf_add (graph : ImportGraph) (addition : Addition) (importer imported : String) :
    imported ∈ (graph.add addition).importsOf importer ↔
      imported ∈ graph.importsOf importer ∨ addition = .imports importer imported := by
  cases addition with
  | package path => simp [add, importsOf_addPackage]
  | imports first second =>
    rw [add, importsOf_addImport]
    split
    · next same =>
      subst same
      rw [mem_insertAscending]
      simp [or_comm, eq_comm]
    · next different => simp [Ne.symm different]

theorem mem_packages_add (graph : ImportGraph) (addition : Addition) (package : String) :
    package ∈ (graph.add addition).packages ↔
      package ∈ graph.packages ∨ package ∈ addition.paths := by
  cases addition with
  | package path => simp [add, mem_packages_addPackage, Addition.paths, or_comm]
  | imports first second =>
    rw [add, mem_packages_addImport]
    simp [Addition.paths, or_comm, or_assoc]

theorem mem_importsOf_build (importer imported : String) :
    imported ∈ (build additions).importsOf importer ↔ Records additions importer imported := by
  induction additions using List.reverseRecOn with
  | nil => exact iff_of_false List.not_mem_nil List.not_mem_nil
  | append_singleton earlier addition ih =>
    rw [build, List.foldl_concat, mem_importsOf_add, ← build, ih]
    simp [Records, eq_comm]

theorem importsOf_build :
    (fun importer imported => imported ∈ (build additions).importsOf importer) =
      Records additions := by
  funext importer imported
  exact propext (mem_importsOf_build additions importer imported)

theorem mem_packages_build (package : String) :
    package ∈ (build additions).packages ↔ ∃ addition ∈ additions, package ∈ addition.paths := by
  induction additions using List.reverseRecOn with
  | nil => simp [build, packages, empty, OrderedMap.keys, OrderedMap.empty]
  | append_singleton earlier addition ih =>
    rw [build, List.foldl_concat, mem_packages_add, ← build, ih]
    simp [or_and_right, exists_or]

/-! ### Waves -/

def wave (graph : ImportGraph) : Nat → Wave
  | 0 => graph.firstWave
  | turn + 1 => graph.nextWave (graph.wave turn)

def placedBefore (graph : ImportGraph) (turn : Nat) : List String :=
  (List.range turn).flatMap fun earlier => (graph.wave earlier).level

/-- Count off an import of a package.  There is no result if none is left to count off. -/
def countDown? (pending : OrderedMap Nat) (importer : String) : Option (OrderedMap Nat) :=
  match pending.get? importer with
  | none => some pending
  | some 0 => none
  | some (count + 1) => some (pending.insert importer count)

def countOff? (graph : ImportGraph) (pending : OrderedMap Nat) (placed : String) :
    Option (OrderedMap Nat) :=
  (graph.importersOf placed).foldlM countDown? pending

section Waves

variable {graph : ImportGraph} {package : String} {index : Nat} {level : List String}

theorem placing_wave (formed : graph.WellFormed) (turn : Nat) :
    Placing graph (graph.placedBefore turn) (graph.wave turn) := by
  induction turn with
  | zero => exact placing_initially formed
  | succ turn ih =>
    have placed : graph.placedBefore (turn + 1) =
        graph.placedBefore turn ++ (graph.wave turn).level := by
      simp [placedBefore, List.range_succ]
    rw [placed]
    exact placing_step formed ih

theorem levelsFrom_wave (bound turn : Nat)
    (found : (graph.levelsFrom bound (graph.wave turn))[index]? = some level) :
    level = (graph.wave (turn + index)).level ∧ level ≠ [] := by
  induction bound generalizing turn index with
  | zero => simp [levelsFrom] at found
  | succ bound ih =>
    rw [levelsFrom] at found
    split at found
    · simp at found
    · next some =>
      cases index with
      | zero =>
        cases found
        exact ⟨rfl, by simpa using some⟩
      | succ index =>
        rw [← Nat.add_assoc, Nat.add_right_comm]
        exact ih (turn + 1) found

theorem levels_wave (found : graph.levels[index]? = some level) :
    level = (graph.wave index).level ∧ level ≠ [] := by
  have placed := levelsFrom_wave (graph.imports.size + 1) 0 found
  rwa [Nat.zero_add] at placed

/-- A package of a later level imports one of the level before. -/
theorem wave_imports_before (formed : graph.WellFormed) {turn : Nat}
    (member : package ∈ (graph.wave (turn + 1)).level) :
    ∃ imported ∈ graph.importsOf package, imported ∈ (graph.wave turn).level := by
  have before := placing_wave formed turn
  obtain ⟨known, outside, ready⟩ := (placing_wave formed (turn + 1)).next package |>.mp member
  by_contra none
  -- All its imports were placed earlier, so it belongs to the level before.
  have early : package ∈ (graph.wave turn).level := by
    refine (before.next package).mpr ⟨known, fun placed => outside ?_, fun imported isImport => ?_⟩
    · simp [placedBefore, List.range_succ] at placed ⊢
      exact .inl placed
    · have placed := ready imported isImport
      rw [placedBefore, List.range_succ, List.flatMap_append] at placed
      rcases List.mem_append.mp placed with earlier | here
      · exact earlier
      · exact absurd ⟨imported, isImport, by simpa using here⟩ none
  refine outside ?_
  rw [placedBefore, List.range_succ, List.flatMap_append]
  exact List.mem_append_right _ (by simpa using early)

/-! ### Counts -/

theorem countDown?_eq {placed done : List String} {wave : Wave} {importer : String}
    (counted : Counted graph placed done wave) (known : importer ∈ graph.packages)
    (enough : done.count importer < (graph.openImports placed importer).length) :
    countDown? wave.pending importer = some (wave.countOff importer).pending := by
  obtain ⟨count, more⟩ := Nat.exists_eq_add_one_of_ne_zero
    (Nat.sub_ne_zero_of_lt enough)
  unfold countDown? Wave.countOff
  rw [counted.counts importer known, more]
  rfl

/-- No count is too small for the imports that are counted off. -/
theorem countDown?_all {placed done : List String} {wave : Wave} (importers : List String)
    (counted : Counted graph placed done wave)
    (known : ∀ importer ∈ importers, importer ∈ graph.packages)
    (enough : ∀ package, (done ++ importers).count package ≤
      (graph.openImports placed package).length) :
    importers.foldlM countDown? wave.pending =
      some (importers.foldl Wave.countOff wave).pending := by
  induction importers generalizing done wave with
  | nil => rfl
  | cons importer later ih =>
    rw [List.forall_mem_cons] at known
    have here := enough importer
    rw [List.count_append, List.count_cons_self] at here
    rw [List.append_cons] at enough
    rw [List.foldlM_cons, countDown?_eq counted known.1 (by omega)]
    exact ih (counted.countOff known.1 (by omega)) known.2 enough

theorem countOff?_level (formed : graph.WellFormed) {placed : List String} {wave : Wave}
    (placing : Placing graph placed wave) :
    wave.level.foldlM graph.countOff? wave.pending = some (graph.nextWave wave).pending := by
  have all : ∀ (packages : List String) (pending : OrderedMap Nat),
      packages.foldlM graph.countOff? pending =
        (packages.flatMap graph.importersOf).foldlM countDown? pending := by
    intro packages
    induction packages with
    | nil => exact fun _ => rfl
    | cons package later ih =>
      intro pending
      rw [List.flatMap_cons, List.foldlM_append, List.foldlM_cons]
      exact bind_congr fun after => ih after
  rw [all, nextWave, ← List.foldl_flatMap]
  exact countDown?_all _ (counted_none placing) (importers_known formed wave.level)
    (count_importers_le formed placing)

/-! ### Longest chains -/

structure LongestChain (imports : String → String → Prop) (package : String) (length : Nat) :
    Prop where
  reached : ∃ later, later.length = length ∧ (package :: later).IsChain imports
  longest : ∀ later, (package :: later).IsChain imports → later.length ≤ length

variable (formed : graph.WellFormed)
include formed

/-- A package is placed behind the longest chain of imports from it. -/
theorem levels_longestChain (found : graph.levels[index]? = some level) (member : package ∈ level) :
    LongestChain (fun importer imported => imported ∈ graph.importsOf importer) package index := by
  induction index using Nat.strongRecOn generalizing level package with
  | ind index ih =>
    constructor
    · cases index with
      | zero => exact ⟨[], rfl, List.isChain_singleton package⟩
      | succ index =>
        rw [(levels_wave found).1] at member
        obtain ⟨imported, isImport, before⟩ := wave_imports_before formed member
        obtain ⟨there, atIndex⟩ : ∃ there, graph.levels[index]? = some there := by
          have := (List.getElem?_eq_some_iff.mp found).1
          exact ⟨_, List.getElem?_eq_getElem (by omega)⟩
        rw [← (levels_wave atIndex).1] at before
        obtain ⟨later, length, chain⟩ :=
          (ih index (Nat.lt_succ_self _) atIndex before).reached
        exact ⟨imported :: later, by rw [List.length_cons, length], .cons_cons isImport chain⟩
    · intro later chain
      cases later with
      | nil => exact Nat.zero_le _
      | cons imported rest =>
        rw [List.isChain_cons_cons] at chain
        obtain ⟨earlier, isEarlier, there, atEarlier, inThere⟩ :=
          levels_earlier formed found member chain.1
        have shorter :=
          (ih earlier isEarlier atEarlier inThere).longest rest chain.2
        rw [List.length_cons]
        omega

/-! ### Packages that reach a cycle -/

omit formed in
/-- A chain that meets a package twice leads to a cycle. -/
theorem returns_of_not_nodup {imports : String → String → Prop} {first : String}
    {later : List String} (chain : (first :: later).IsChain imports)
    (repeats : ¬(first :: later).Nodup) :
    ∃ other, ReflTransGen imports first other ∧ TransGen imports other other := by
  induction later generalizing first with
  | nil => exact absurd (List.nodup_singleton first) repeats
  | cons next rest ih =>
    by_cases again : first ∈ next :: rest
    · have reached : (first :: next :: rest).IsChain (TransGen imports) :=
        chain.imp fun _ _ => .single
      exact ⟨first, .refl, (List.pairwise_cons.mp reached.pairwise).1 first again⟩
    · rw [List.isChain_cons_cons] at chain
      have below : ¬(next :: rest).Nodup := fun distinct =>
        repeats (List.nodup_cons.mpr ⟨again, distinct⟩)
      obtain ⟨other, reaches, returns⟩ := ih chain.2 below
      exact ⟨other, reaches.head chain.1, returns⟩

/-- A package in no level imports another one in no level. -/
theorem exists_unplaced_import (known : package ∈ graph.packages)
    (unplaced : package ∉ graph.levels.flatten) :
    ∃ imported ∈ graph.importsOf package,
      imported ∈ graph.packages ∧ imported ∉ graph.levels.flatten := by
  by_contra none
  have placed : ∀ imported ∈ graph.importsOf package, imported ∈ graph.levels.flatten := by
    intro imported isImport
    by_contra missing
    exact none ⟨imported, isImport, formed.closed package imported isImport, missing⟩
  refine unplaced (levelsFrom_complete formed _ (placing_initially formed) ?_ known placed)
  simp [packages, OrderedMap.keys, OrderedMap.size]

/-- Chains of packages in no level go on as far as one likes. -/
theorem exists_unplaced_chain (length : Nat) (known : package ∈ graph.packages)
    (unplaced : package ∉ graph.levels.flatten) :
    ∃ later, later.length = length ∧ (∀ other ∈ package :: later, other ∈ graph.packages) ∧
      (package :: later).IsChain fun importer imported => imported ∈ graph.importsOf importer := by
  induction length generalizing package with
  | zero => exact ⟨[], rfl, by simpa using known, List.isChain_singleton package⟩
  | succ length ih =>
    obtain ⟨imported, isImport, knownToo, unplacedToo⟩ :=
      exists_unplaced_import formed known unplaced
    obtain ⟨later, sameLength, allKnown, chain⟩ := ih knownToo unplacedToo
    exact ⟨imported :: later, by rw [List.length_cons, sameLength],
      List.forall_mem_cons.mpr ⟨known, allKnown⟩, .cons_cons isImport chain⟩

theorem mem_levels_iff :
    package ∈ graph.levels.flatten ↔ package ∈ graph.packages ∧
      ¬∃ other, ReflTransGen (fun importer imported => imported ∈ graph.importsOf importer)
          package other ∧
        TransGen (fun importer imported => imported ∈ graph.importsOf importer) other other := by
  constructor
  · intro member
    refine ⟨levels_known formed package member, ?_⟩
    rintro ⟨other, reaches, returns⟩
    obtain ⟨level, inLevels, inLevel⟩ := List.mem_flatten.mp member
    obtain ⟨index, found⟩ := List.mem_iff_getElem?.mp inLevels
    have ends : graph.Ends package := by
      clear reaches inLevels member
      induction index using Nat.strongRecOn generalizing level package with
      | ind index ih =>
        refine .intro package fun imported isImport => ?_
        obtain ⟨earlier, isEarlier, there, atEarlier, inThere⟩ :=
          levels_earlier formed found inLevel isImport
        exact ih earlier isEarlier there inThere atEarlier
    have below : graph.Ends other := by
      clear returns
      induction reaches with
      | refl => exact ends
      | tail _ isImport ih => exact ih.inv isImport
    exact below.not_returns returns
  · rintro ⟨known, acyclic⟩
    by_contra unplaced
    obtain ⟨later, length, allKnown, chain⟩ :=
      exists_unplaced_chain formed graph.packages.length known unplaced
    refine acyclic (returns_of_not_nodup chain fun distinct => ?_)
    have fewer := (List.subperm_of_subset distinct allKnown).length_le
    rw [List.length_cons, length] at fewer
    omega

end Waves

/-- Levels of a built graph: which packages they hold, in which order, that no count is
too small for what is counted off, and that the importers mirror the imports. -/
theorem levels_eq_longest_chains :
    (build additions).levels.flatten.Nodup ∧
    (∀ package, package ∈ (build additions).levels.flatten ↔
      (∃ addition ∈ additions, package ∈ addition.paths) ∧
        ¬∃ other, ReflTransGen (Records additions) package other ∧
          TransGen (Records additions) other other) ∧
    (∀ index level, (build additions).levels[index]? = some level →
      level ≠ [] ∧ level.Pairwise (· < ·) ∧ level = ((build additions).wave index).level ∧
      ∀ package ∈ level, LongestChain (Records additions) package index ∧
        (∀ imported, Records additions package imported →
          ∃ earlier < index, ∃ there, (build additions).levels[earlier]? = some there ∧
            imported ∈ there) ∧
        (0 < index → ∃ imported there, Records additions package imported ∧
          (build additions).levels[index - 1]? = some there ∧ imported ∈ there)) ∧
    (∀ turn, ((build additions).wave turn).level.foldlM (build additions).countOff?
      ((build additions).wave turn).pending = some ((build additions).wave (turn + 1)).pending) ∧
    ∀ importer imported, importer ∈ (build additions).importersOf imported ↔
      Records additions importer imported := by
  have formed := build_wellFormed additions
  have records := importsOf_build additions
  refine ⟨levels_distinct formed, fun package => ?_, fun index level found => ?_, fun turn => ?_,
    fun importer imported => ?_⟩
  · rw [mem_levels_iff formed, mem_packages_build, records]
  · obtain ⟨same, some⟩ := levels_wave found
    refine ⟨some, ?_, same, fun package member => ⟨?_, ?_, ?_⟩⟩
    · rw [same]
      exact (placing_wave formed index).sorted
    · rw [← records]
      exact levels_longestChain formed found member
    · intro imported recorded
      exact levels_earlier formed found member
        ((mem_importsOf_build additions package imported).mpr recorded)
    · intro later
      obtain ⟨before, rfl⟩ := Nat.exists_eq_succ_of_ne_zero (Nat.ne_of_gt later)
      rw [same] at member
      obtain ⟨imported, isImport, inBefore⟩ := wave_imports_before formed member
      have shorter := (List.getElem?_eq_some_iff.mp found).1
      refine ⟨imported, _, (mem_importsOf_build additions package imported).mp isImport,
        List.getElem?_eq_getElem (Nat.lt_of_succ_lt shorter), ?_⟩
      rw [(levels_wave (List.getElem?_eq_getElem (Nat.lt_of_succ_lt shorter))).1]
      exact inBefore
  · exact countOff?_level formed (placing_wave formed turn)
  · rw [formed.mirrored, mem_importsOf_build]

/-- A built graph has a reported cycle if its imports have one, and every reported cycle goes
once around recorded imports, back to where it starts. -/
theorem cycles_eq_recorded :
    ((build additions).cycles ≠ [] ↔ ∃ package, TransGen (Records additions) package package) ∧
    ∀ cycle ∈ (build additions).cycles, 2 ≤ cycle.path.length ∧
      cycle.path.head? = cycle.path.getLast? ∧ cycle.path.dropLast.Nodup ∧
      cycle.path.IsChain (Records additions) := by
  have records := importsOf_build additions
  refine ⟨?_, fun cycle reported => ?_⟩
  · rw [cycles_ne_nil_iff (build_wellFormed additions), records]
  · obtain ⟨package, later, path, last, chain⟩ := cycles_close cycle reported
    have simple := cycles_simple cycle reported
    rw [records] at chain
    cases later with
    | nil => cases last
    | cons next rest =>
      rw [path] at simple ⊢
      refine ⟨by simp, ?_, simple, chain⟩
      rw [List.head?_cons, List.getLast?_cons_cons, last]

end Unclosed.ImportGraph
