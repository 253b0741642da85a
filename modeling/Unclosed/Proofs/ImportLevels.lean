import Mathlib.Data.List.Nodup
import Mathlib.Data.List.Perm.Subperm
import Unclosed.Import.Graph
import Unclosed.Proofs.OrderedKeys

/-!
Levels of an import graph.  A level holds the packages that import only packages
of earlier levels and stand in none of them.  So no package is listed twice, and
every package is listed from which all chains of imports end.
-/

namespace Unclosed.ImportGraph

variable {graph : ImportGraph} {package imported : String} {index : Nat} {here : List String}

/-! ### Graphs -/

/-- Every package is listed once, with imports that are listed once and are
packages of the graph, and importers that are listed once and mirror the imports. -/
structure WellFormed (graph : ImportGraph) : Prop where
  ascending : graph.imports.Ascending
  sorted : ∀ package, (graph.importsOf package).Pairwise (· < ·)
  closed : ∀ package, ∀ imported ∈ graph.importsOf package, imported ∈ graph.packages
  importersSorted : ∀ package, (graph.importersOf package).Pairwise (· < ·)
  mirrored : ∀ importer imported,
    importer ∈ graph.importersOf imported ↔ imported ∈ graph.importsOf importer

section Lists

variable (lists : OrderedMap (List String)) (added package : String)

theorem getD_modify_getD :
    ((lists.modify added (·.getD [])).get? package).getD [] = (lists.get? package).getD [] := by
  rw [OrderedMap.get?_modify]
  split
  · next same => rw [same, Option.getD_some]
  · rfl

theorem getD_modify_insertAscending (text : String) :
    ((lists.modify added fun known => insertAscending text (known.getD [])).get? package).getD [] =
      if package = added then insertAscending text ((lists.get? added).getD [])
      else (lists.get? package).getD [] := by
  rw [OrderedMap.get?_modify]
  split
  · rw [Option.getD_some]
  · rfl

end Lists

theorem importsOf_addPackage (graph : ImportGraph) (added package : String) :
    (graph.addPackage added).importsOf package = graph.importsOf package :=
  getD_modify_getD graph.imports added package

theorem importersOf_addPackage (graph : ImportGraph) (added package : String) :
    (graph.addPackage added).importersOf package = graph.importersOf package :=
  getD_modify_getD graph.importers added package

theorem importsOf_addImport (graph : ImportGraph) (importer imported package : String) :
    (graph.addImport importer imported).importsOf package =
      if package = importer then insertAscending imported (graph.importsOf importer)
      else graph.importsOf package := by
  unfold addImport importsOf
  rw [getD_modify_insertAscending]
  simp only [addPackage, getD_modify_getD]

theorem importersOf_addImport (graph : ImportGraph) (importer imported package : String) :
    (graph.addImport importer imported).importersOf package =
      if package = imported then insertAscending importer (graph.importersOf imported)
      else graph.importersOf package := by
  unfold addImport importersOf
  rw [getD_modify_insertAscending]
  simp only [addPackage, getD_modify_getD]

theorem mem_packages_addPackage {added : String} :
    package ∈ (graph.addPackage added).packages ↔ package = added ∨ package ∈ graph.packages := by
  unfold packages addPackage
  rw [OrderedMap.mem_keys_iff, OrderedMap.mem_keys_iff, OrderedMap.get?_modify]
  by_cases same : package = added
  · simp [same]
  · simp [same]

theorem mem_packages_addImport {importer : String} :
    package ∈ (graph.addImport importer imported).packages ↔
      package = importer ∨ package = imported ∨ package ∈ graph.packages := by
  have added : package ∈ (graph.addImport importer imported).packages ↔
      package = importer ∨ package ∈ ((graph.addPackage importer).addPackage imported).packages := by
    unfold packages addImport
    rw [OrderedMap.mem_keys_iff, OrderedMap.mem_keys_iff, OrderedMap.get?_modify]
    by_cases same : package = importer
    · simp [same]
    · simp [same]
  rw [added, mem_packages_addPackage, mem_packages_addPackage]
  tauto

namespace WellFormed

variable {graph : ImportGraph}

theorem empty : WellFormed .empty :=
  ⟨OrderedMap.empty_ascending, fun _ => .nil, fun _ _ member => (List.not_mem_nil member).elim,
    fun _ => .nil, fun _ _ => iff_of_false List.not_mem_nil List.not_mem_nil⟩

variable (formed : graph.WellFormed)
include formed

theorem addPackage (added : String) :
    (graph.addPackage added).WellFormed where
  ascending := OrderedMap.modify_ascending formed.ascending added _
  sorted package := by
    rw [importsOf_addPackage]
    exact formed.sorted package
  closed package imported member := by
    rw [importsOf_addPackage] at member
    exact mem_packages_addPackage.mpr (.inr (formed.closed package imported member))
  importersSorted package := by
    rw [importersOf_addPackage]
    exact formed.importersSorted package
  mirrored importer imported := by
    rw [importersOf_addPackage, importsOf_addPackage]
    exact formed.mirrored importer imported

theorem addImport (importer imported : String) :
    (graph.addImport importer imported).WellFormed where
  ascending := OrderedMap.modify_ascending
    ((formed.addPackage importer).addPackage imported).ascending importer _
  sorted package := by
    rw [importsOf_addImport]
    split
    · exact insertAscending_pairwise imported (formed.sorted importer)
    · exact formed.sorted package
  closed package other member := by
    rw [mem_packages_addImport]
    rw [importsOf_addImport] at member
    split at member
    · rcases mem_insertAscending.mp member with rfl | member
      · exact .inr (.inl rfl)
      · exact .inr (.inr (formed.closed importer other member))
    · exact .inr (.inr (formed.closed package other member))
  importersSorted package := by
    rw [importersOf_addImport]
    split
    · exact insertAscending_pairwise importer (formed.importersSorted imported)
    · exact formed.importersSorted package
  mirrored first second := by
    rw [importersOf_addImport, importsOf_addImport]
    by_cases sameImporter : first = importer <;> by_cases sameImported : second = imported <;>
      simp [sameImporter, sameImported, mem_insertAscending, formed.mirrored]

theorem importsOf_nodup (package : String) : (graph.importsOf package).Nodup :=
  (formed.sorted package).imp fun before => ne_of_lt before

theorem importsOf_entry {imported : List String}
    (entry : (package, imported) ∈ graph.imports.entries) :
    graph.importsOf package = imported := by
  unfold importsOf
  rw [(OrderedMap.mem_entries_iff formed.ascending).mp entry, Option.getD_some]

end WellFormed

theorem mem_packages_of_import (isImport : imported ∈ graph.importsOf package) :
    package ∈ graph.packages := by
  refine OrderedMap.mem_keys_iff.mpr (Option.ne_none_iff_exists'.mp fun none => ?_)
  unfold importsOf at isImport
  rw [none] at isImport
  cases isImport

/-! ### Counting off -/

def openImports (graph : ImportGraph) (placed : List String) (package : String) : List String :=
  (graph.importsOf package).filter fun imported => imported ∉ placed

/-- A wave under way: some importers were counted off, each as often as it is listed,
and those without open imports have joined the level. -/
structure Counted (graph : ImportGraph) (placed done : List String) (wave : Wave) : Prop where
  sorted : wave.level.Pairwise (· < ·)
  counts : ∀ package ∈ graph.packages, wave.pending.get? package =
    some ((graph.openImports placed package).length - done.count package)
  joined : ∀ package, package ∈ wave.level ↔ package ∈ graph.packages ∧
    0 < done.count package ∧ done.count package = (graph.openImports placed package).length

section Counting

variable {placed done : List String} {wave : Wave}

theorem Counted.countOff {importer : String} (counted : Counted graph placed done wave)
    (known : importer ∈ graph.packages)
    (enough : done.count importer < (graph.openImports placed importer).length) :
    Counted graph placed (done ++ [importer]) (wave.countOff importer) := by
  unfold Wave.countOff
  rw [counted.counts importer known]
  dsimp only
  have more (package : String) : (done ++ [importer]).count package =
      done.count package + if package = importer then 1 else 0 := by
    rw [List.count_append, List.count_singleton]
    simp only [beq_iff_eq, @eq_comm _ importer package]
  refine ⟨?_, fun package inGraph => ?_, fun package => ?_⟩
  · dsimp only
    split
    · exact insertAscending_pairwise importer counted.sorted
    · exact counted.sorted
  · rw [OrderedMap.get?_insert, more]
    split
    · next same => rw [same, Nat.sub_add_eq]
    · exact counted.counts package inGraph
  · have joins : package ∈ (if (graph.openImports placed importer).length -
          done.count importer - 1 = 0 then insertAscending importer wave.level else wave.level) ↔
        (package = importer ∧ (graph.openImports placed importer).length =
          done.count importer + 1) ∨ package ∈ wave.level := by
      split
      · next last =>
        rw [mem_insertAscending, and_iff_left (by omega)]
      · next open_ =>
        rw [or_iff_right (by omega)]
    dsimp only
    rw [joins, counted.joined, more]
    by_cases same : package = importer
    · subst same
      simp only [true_and, known, if_true]
      omega
    · simp [same]

theorem Counted.countOff_all (importers : List String) (counted : Counted graph placed done wave)
    (known : ∀ importer ∈ importers, importer ∈ graph.packages)
    (enough : ∀ package, (done ++ importers).count package ≤
      (graph.openImports placed package).length) :
    Counted graph placed (done ++ importers) (importers.foldl Wave.countOff wave) := by
  induction importers generalizing done wave with
  | nil => simpa using counted
  | cons importer later ih =>
    rw [List.forall_mem_cons] at known
    have here := enough importer
    rw [List.count_append, List.count_cons_self] at here
    rw [List.append_cons] at enough ⊢
    exact ih (counted.countOff known.1 (by omega)) known.2 enough

end Counting

/-! ### Placing packages -/

/-- A wave that comes next: what is placed is closed under imports, the level holds
the packages whose imports are placed, and the counts are those of the others. -/
structure Placing (graph : ImportGraph) (placed : List String) (wave : Wave) : Prop where
  distinct : (placed ++ wave.level).Nodup
  sorted : wave.level.Pairwise (· < ·)
  known : ∀ package ∈ placed, package ∈ graph.packages
  closed : ∀ package ∈ placed, ∀ imported ∈ graph.importsOf package, imported ∈ placed
  next : ∀ package, package ∈ wave.level ↔ package ∈ graph.packages ∧ package ∉ placed ∧
    ∀ imported ∈ graph.importsOf package, imported ∈ placed
  counts : ∀ package ∈ graph.packages, wave.pending.get? package =
    some (graph.openImports placed package).length

theorem openImports_eq_nil_iff {placed : List String} :
    graph.openImports placed package = [] ↔
      ∀ imported ∈ graph.importsOf package, imported ∈ placed := by
  simp [openImports]

def importCount (graph : ImportGraph) (package : String) (placed : List String) : Nat :=
  (placed.filter fun other => (graph.importsOf package).contains other).length

section Levels

variable {graph : ImportGraph} {placed : List String} {wave : Wave} (formed : graph.WellFormed)

include formed

theorem firstWave_pending (known : package ∈ graph.packages) :
    graph.firstWave.pending.get? package = some (graph.importsOf package).length := by
  obtain ⟨imported, found⟩ := OrderedMap.mem_keys_iff.mp known
  have entry := (OrderedMap.mem_entries_iff formed.ascending).mpr found
  have ascending : graph.firstWave.pending.Ascending := List.pairwise_map.mpr formed.ascending
  refine (OrderedMap.mem_entries_iff ascending).mp ?_
  rw [formed.importsOf_entry entry]
  exact List.mem_map.mpr ⟨_, entry, rfl⟩

theorem placing_initially : Placing graph [] graph.firstWave := by
  have sorted : graph.firstWave.level.Pairwise (· < ·) := by
    refine (OrderedMap.keys_pairwise formed.ascending).sublist ?_
    have kept : (graph.imports.entries.map fun entry => (entry.1, entry.2.length)).filter
        (fun entry => entry.2 == 0) |>.Sublist _ :=
      List.filter_sublist
    simpa [Function.comp_def, OrderedMap.keys, firstWave] using kept.map Prod.fst
  refine ⟨sorted.imp fun before => ne_of_lt before, sorted, by simp, by simp, fun package => ?_,
    fun package known => ?_⟩
  · have entries : package ∈ graph.firstWave.level ↔
        ∃ imported, (package, imported) ∈ graph.imports.entries ∧ imported = [] := by
      simp [firstWave]
    rw [entries]
    simp only [OrderedMap.mem_entries_iff formed.ascending, packages, OrderedMap.mem_keys_iff]
    constructor
    · rintro ⟨imported, found, rfl⟩
      simp [importsOf, found]
    · rintro ⟨⟨imported, found⟩, _, none⟩
      refine ⟨imported, found, List.eq_nil_iff_forall_not_mem.mpr fun other member => ?_⟩
      exact List.not_mem_nil (none other (by simpa [importsOf, found] using member))
  · rw [firstWave_pending formed known]
    simp [openImports]

/-- By the mirror, a package is listed as an importer once for each of its imports. -/
theorem count_importers (package : String) (level : List String) :
    (level.flatMap graph.importersOf).count package = graph.importCount package level := by
  induction level with
  | nil => rfl
  | cons placed later ih =>
    have distinct := (formed.importersSorted placed).imp fun before => ne_of_lt before
    rw [List.flatMap_cons, List.count_append, ih, List.Nodup.count distinct]
    simp only [importCount, List.filter_cons, List.contains_iff_mem, formed.mirrored]
    split
    · rw [List.length_cons, Nat.add_comm]
    · rw [Nat.zero_add]

theorem importers_known (level : List String) :
    ∀ importer ∈ level.flatMap graph.importersOf, importer ∈ graph.packages := by
  intro importer member
  obtain ⟨package, _, isImporter⟩ := List.mem_flatMap.mp member
  exact mem_packages_of_import ((formed.mirrored importer package).mp isImporter)

section

variable (placing : Placing graph placed wave)
include placing

theorem importCount_eq_filter (package : String) :
    graph.importCount package wave.level =
      ((graph.openImports placed package).filter fun imported =>
        imported ∈ wave.level).length := by
  have apart : ∀ other ∈ wave.level, other ∉ placed := fun other inLevel inPlaced =>
    (List.nodup_append.mp placing.distinct).2.2 other inPlaced other inLevel rfl
  unfold importCount
  refine List.Perm.length_eq ((List.perm_ext_iff_of_nodup ?_ ?_).mpr fun other => ?_)
  · exact (List.nodup_append.mp placing.distinct).2.1.filter _
  · exact ((formed.importsOf_nodup package).filter _).filter _
  · simp only [openImports, List.mem_filter, List.contains_iff_mem, decide_eq_true_eq]
    exact ⟨fun ⟨inLevel, imported⟩ => ⟨⟨imported, apart other inLevel⟩, inLevel⟩,
      fun ⟨⟨imported, _⟩, inLevel⟩ => ⟨inLevel, imported⟩⟩

theorem importCount_le (package : String) :
    graph.importCount package wave.level ≤ (graph.openImports placed package).length := by
  rw [importCount_eq_filter formed placing]
  exact List.length_filter_le _ _

theorem importCount_eq (package : String) :
    (graph.openImports placed package).length - graph.importCount package wave.level =
      (graph.openImports (placed ++ wave.level) package).length := by
  have left : graph.openImports (placed ++ wave.level) package =
      (graph.openImports placed package).filter fun imported =>
        !decide (imported ∈ wave.level) := by
    simp [openImports, List.filter_filter, Bool.and_comm]
  have split := List.length_eq_length_filter_add
    (l := graph.openImports placed package) fun imported => decide (imported ∈ wave.level)
  rw [left, importCount_eq_filter formed placing]
  omega

omit formed in
theorem counted_none : Counted graph placed [] ⟨[], wave.pending⟩ :=
  ⟨.nil, placing.counts, fun package => by simp⟩

theorem count_importers_le (package : String) :
    ([] ++ wave.level.flatMap graph.importersOf).count package ≤
      (graph.openImports placed package).length := by
  rw [List.nil_append, count_importers formed]
  exact importCount_le formed placing package

theorem counted_nextWave :
    Counted graph placed (wave.level.flatMap graph.importersOf) (graph.nextWave wave) := by
  unfold nextWave
  rw [← List.foldl_flatMap]
  exact (counted_none placing).countOff_all _ (importers_known formed wave.level)
    (count_importers_le formed placing)

theorem placing_step : Placing graph (placed ++ wave.level) (graph.nextWave wave) := by
  have counted := counted_nextWave formed placing
  have closed : ∀ package ∈ placed ++ wave.level, ∀ imported ∈ graph.importsOf package,
      imported ∈ placed := by
    intro package member
    rcases List.mem_append.mp member with inPlaced | inLevel
    · exact placing.closed package inPlaced
    · exact ((placing.next package).mp inLevel).2.2
  have next : ∀ package, package ∈ (graph.nextWave wave).level ↔ package ∈ graph.packages ∧
      package ∉ placed ++ wave.level ∧
        ∀ imported ∈ graph.importsOf package, imported ∈ placed ++ wave.level := by
    intro package
    have listed : package ∈ (graph.nextWave wave).level ↔ package ∈ graph.packages ∧
        graph.openImports placed package ≠ [] ∧
          graph.openImports (placed ++ wave.level) package = [] := by
      have bound := importCount_le formed placing package
      have rest := importCount_eq formed placing package
      rw [counted.joined, count_importers formed, ← List.length_pos_iff, ← List.length_eq_zero_iff]
      exact and_congr_right fun _ => by omega
    rw [listed, openImports_eq_nil_iff, ne_eq, openImports_eq_nil_iff]
    refine and_congr_right fun known => and_congr_left fun _ => ?_
    constructor
    · exact fun missing member => missing (closed package member)
    · intro outside done
      refine outside (List.mem_append_right _ ((placing.next package).mpr ⟨known, ?_, done⟩))
      exact fun inPlaced => outside (List.mem_append_left _ inPlaced)
  refine ⟨?_, counted.sorted, ?_, ?_, next, fun package known => ?_⟩
  · rw [List.nodup_append]
    refine ⟨placing.distinct, counted.sorted.imp fun before => ne_of_lt before, ?_⟩
    rintro package before other after rfl
    exact ((next package).mp after).2.1 before
  · intro package member
    rcases List.mem_append.mp member with inPlaced | inLevel
    · exact placing.known package inPlaced
    · exact ((placing.next package).mp inLevel).1
  · intro package member imported isImport
    exact List.mem_append_left _ (closed package member imported isImport)
  · rw [counted.counts package known, count_importers formed, importCount_eq formed placing]

end

/-! ### All levels -/

theorem levelsFrom_distinct (bound : Nat) (placing : Placing graph placed wave) :
    (placed ++ (graph.levelsFrom bound wave).flatten).Nodup := by
  induction bound generalizing placed wave with
  | zero => simpa [levelsFrom] using (List.nodup_append.mp placing.distinct).1
  | succ bound ih =>
    unfold levelsFrom
    split
    · simpa using (List.nodup_append.mp placing.distinct).1
    · rw [List.flatten_cons, ← List.append_assoc]
      exact ih (placing_step formed placing)

theorem levelsFrom_known (bound : Nat) (placing : Placing graph placed wave) :
    ∀ package ∈ (graph.levelsFrom bound wave).flatten, package ∈ graph.packages := by
  induction bound generalizing placed wave with
  | zero => simp [levelsFrom]
  | succ bound ih =>
    unfold levelsFrom
    split
    · simp
    · rw [List.flatten_cons]
      intro package member
      rcases List.mem_append.mp member with inLevel | later
      · exact ((placing.next package).mp inLevel).1
      · exact ih (placing_step formed placing) package later

/-- What a package of a level imports was placed before or stands in an earlier level. -/
theorem levelsFrom_earlier (bound : Nat) (placing : Placing graph placed wave)
    (found : (graph.levelsFrom bound wave)[index]? = some here) (member : package ∈ here)
    (isImport : imported ∈ graph.importsOf package) :
    imported ∈ placed ∨ ∃ earlier < index, ∃ there,
      (graph.levelsFrom bound wave)[earlier]? = some there ∧ imported ∈ there := by
  induction bound generalizing placed wave index with
  | zero => simp [levelsFrom] at found
  | succ bound ih =>
    unfold levelsFrom at found ⊢
    split
    · next none => simp [none] at found
    · next some =>
      rw [if_neg some] at found
      cases index with
      | zero =>
        cases found
        exact .inl (((placing.next package).mp member).2.2 imported isImport)
      | succ index =>
        rcases ih (placing_step formed placing) found with
          before | ⟨earlier, isEarlier, there, atEarlier, inThere⟩
        · rcases List.mem_append.mp before with inPlaced | inLevel
          · exact .inl inPlaced
          · exact .inr ⟨0, by omega, wave.level, rfl, inLevel⟩
        · exact .inr ⟨earlier + 1, by omega, there, atEarlier, inThere⟩

/-- With enough levels nothing is left whose imports are all placed. -/
theorem levelsFrom_complete (bound : Nat) (placing : Placing graph placed wave)
    (enough : graph.packages.length < placed.length + bound) (known : package ∈ graph.packages)
    (ready : ∀ imported ∈ graph.importsOf package,
      imported ∈ placed ++ (graph.levelsFrom bound wave).flatten) :
    package ∈ placed ++ (graph.levelsFrom bound wave).flatten := by
  induction bound generalizing placed wave with
  | zero =>
    -- More packages would be placed than there are.
    have fewer : placed.length ≤ graph.packages.length :=
      (List.subperm_of_subset (List.nodup_append.mp placing.distinct).1 placing.known).length_le
    omega
  | succ bound ih =>
    unfold levelsFrom at ready ⊢
    split
    · next none =>
      simp only [none, if_true, List.flatten_nil, List.append_nil] at ready ⊢
      by_contra outside
      have joins := (placing.next package).mpr ⟨known, outside, ready⟩
      rw [List.isEmpty_iff.mp none] at joins
      exact List.not_mem_nil joins
    · next some =>
      rw [if_neg some] at ready
      rw [List.flatten_cons, ← List.append_assoc] at ready ⊢
      refine ih (placing_step formed placing) ?_ ready
      have grows : 0 < wave.level.length := List.length_pos_iff.mpr (by simpa using some)
      rw [List.length_append]
      omega

end Levels

/-! ### Levels of a graph -/

section Graph

variable {graph : ImportGraph} (formed : graph.WellFormed)

include formed

theorem levels_distinct : graph.levels.flatten.Nodup :=
  levelsFrom_distinct formed _ (placing_initially formed)

theorem levels_known : ∀ package ∈ graph.levels.flatten, package ∈ graph.packages :=
  levelsFrom_known formed _ (placing_initially formed)

theorem levels_earlier (found : graph.levels[index]? = some here) (member : package ∈ here)
    (isImport : imported ∈ graph.importsOf package) :
    ∃ earlier < index, ∃ there, graph.levels[earlier]? = some there ∧ imported ∈ there :=
  (levelsFrom_earlier formed _ (placing_initially formed) found member isImport).resolve_left
    List.not_mem_nil

theorem mem_levels_of_acc
    (ends : Acc (fun imported importer => imported ∈ graph.importsOf importer) package)
    (known : package ∈ graph.packages) : package ∈ graph.levels.flatten := by
  induction ends with
  | intro package _ ih =>
    refine levelsFrom_complete formed _ (placing_initially formed) ?_ known fun imported isImport =>
      ih imported isImport (formed.closed package imported isImport)
    simp [packages, OrderedMap.keys, OrderedMap.size]

end Graph

end Unclosed.ImportGraph
