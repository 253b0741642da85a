import Unclosed.Proofs.FactConflicts
import Unclosed.Proofs.FallbackInfluence
import Unclosed.Proofs.LoadedPackages

/-!
An analysis checks each package right after it was summarized.  The facts that
are written later are about functions of later packages, which the package does
not call, so it might as well be checked in the end.
-/

namespace Unclosed

variable {program : Program} {key : FuncKey} {candidate : Candidate} {α : Type}

/-! ### Keys -/

namespace Program

def DistinctKeys (program : Program) : Prop :=
  (program.symbols.symbols.toList.filterMap Symbol.key).Nodup

instance (program : Program) : Decidable program.DistinctKeys :=
  inferInstanceAs (Decidable (List.Nodup _))

def keyOf (program : Program) (id : SymbolId) : Option FuncKey :=
  (program.symbols.get? id).bind Symbol.key

theorem DistinctKeys.injective (distinct : program.DistinctKeys) {first second : SymbolId}
    (firstKey : program.keyOf first = some key) (secondKey : program.keyOf second = some key) :
    first = second := by
  obtain ⟨symbol, found, hasKey⟩ := Option.bind_eq_some_iff.mp firstKey
  obtain ⟨other, otherFound, otherKey⟩ := Option.bind_eq_some_iff.mp secondKey
  unfold SymbolTable.get? at found otherFound
  rw [← Array.getElem?_toList] at found otherFound
  have apart := List.pairwise_filterMap.mp distinct
  rw [List.pairwise_iff_getElem] at apart
  obtain ⟨firstLt, is⟩ := List.getElem?_eq_some_iff.mp found
  obtain ⟨secondLt, isOther⟩ := List.getElem?_eq_some_iff.mp otherFound
  rcases Nat.lt_trichotomy first.index second.index with before | same | behind
  · exact absurd rfl (apart _ _ firstLt secondLt before key (is ▸ hasKey) key (isOther ▸ otherKey))
  · cases first
    cases second
    cases same
    rfl
  · exact absurd rfl (apart _ _ secondLt firstLt behind key (isOther ▸ otherKey) key (is ▸ hasKey))

theorem calls_of_mem_calledKeys {package : Package} (member : key ∈ program.calledKeys package) :
    ∃ id, package.Calls id ∧ program.keyOf id = some key := by
  obtain ⟨numbered, inFiles, member⟩ := List.mem_flatMap.mp member
  obtain ⟨func, inFile, member⟩ := List.mem_flatMap.mp member
  obtain ⟨callee, inBody, found⟩ := List.mem_filterMap.mp member
  obtain ⟨⟨id, symbol⟩, target, hasKey⟩ := Option.bind_eq_some_iff.mp found
  obtain ⟨other, called, same⟩ := Option.bind_eq_some_iff.mp target
  obtain ⟨found, isSymbol, same⟩ := Option.bind_eq_some_iff.mp same
  cases same
  exact ⟨id, ⟨numbered, inFiles, func, inFile, callee, inBody, called⟩,
    Option.bind_eq_some_iff.mpr ⟨symbol, isSymbol, hasKey⟩⟩

end Program

namespace Summarizer

theorem writeAll_keeps (store : FactStore) (facts : List (FuncKey × Bool)) (key : FuncKey)
    (other : ∀ fact ∈ facts, fact.1 ≠ key) :
    (writeAll store facts).1.written.get? key.text = store.written.get? key.text := by
  induction facts generalizing store with
  | nil => rfl
  | cons first later ih =>
    obtain ⟨written, fact⟩ := first
    rw [List.forall_mem_cons] at other
    unfold writeAll
    rcases store.write_cases written fact with ⟨_, same⟩ | ⟨_, _, _, refused⟩ | ⟨_, added⟩
    · rw [same]
      exact ih store other.2
    · rw [refused]
    · rw [added]
      refine (ih _ other.2).trans ?_
      rw [OrderedMap.get?_insert, if_neg]
      intro same
      exact other.1 (by cases written; cases key; cases same; rfl)

variable (summarizer : Summarizer)

theorem declares_of_mem_allCandidates (member : candidate ∈ summarizer.allCandidates) :
    summarizer.package.Declares candidate.symbol := by
  obtain ⟨numbered, inFiles, member⟩ := List.mem_flatMap.mp member
  obtain ⟨func, inFile, found⟩ := List.mem_filterMap.mp member
  unfold candidate? at found
  simp only [Option.bind_eq_bind, Option.bind_eq_some_iff] at found
  obtain ⟨_, _, id, declared, _, _, _, _, _, _, found⟩ := found
  split at found
  · cases found
  · cases found
    exact ⟨numbered, inFiles, func, inFile, declared⟩

theorem keyOf_candidate (member : candidate ∈ summarizer.allCandidates) :
    summarizer.program.keyOf candidate.symbol = some candidate.key :=
  (summarizer.describes_of_mem_all candidate member).key

theorem consistent_of_distinctKeys (distinct : summarizer.program.DistinctKeys) :
    summarizer.Consistent := by
  intro first firstMember second secondMember sameKey
  have firstKey := summarizer.keyOf_candidate ((summarizer.mem_candidates first).mp firstMember).1
  have secondKey :=
    summarizer.keyOf_candidate ((summarizer.mem_candidates second).mp secondMember).1
  have sameSymbol : first.symbol = second.symbol :=
    distinct.injective (sameKey ▸ firstKey) secondKey
  unfold verdict
  rw [sameSymbol]

theorem run_keeps (other : ∀ candidate ∈ summarizer.allCandidates, candidate.key ≠ key) :
    summarizer.run.1.isDisposer key = summarizer.facts.isDisposer key := by
  have kept : summarizer.run.1.written.get? key.text = summarizer.facts.written.get? key.text := by
    rw [run_store]
    apply writeAll_keeps
    intro fact member
    rw [verdicts_facts] at member
    obtain ⟨candidate, isCandidate, rfl⟩ := List.mem_map.mp member
    exact other candidate ((summarizer.mem_candidates candidate).mp isCandidate).1
  unfold FactStore.isDisposer FactStore.fact?
  rw [kept, summarizer.run_extends.fallback]

end Summarizer

namespace Program

section Order

variable (program : Program) (settings : AnalysisSettings)

theorem visitPackages_store {β : Type} (answer : FactStore → Package → SummaryReport → α)
    (other : FactStore → Package → SummaryReport → β) (packages : List Package)
    (store : FactStore) :
    (visitPackages (program.summarizeThen settings answer) packages store).1 =
      (visitPackages (program.summarizeThen settings other) packages store).1 := by
  induction packages generalizing store with
  | nil => rfl
  | cons package later ih => exact ih _

theorem visitPackages_keeps (answer : FactStore → Package → SummaryReport → α)
    (distinct : program.DistinctKeys) {id : SymbolId} (hasKey : program.keyOf id = some key)
    (packages : List Package) (elsewhere : ∀ package ∈ packages, ¬package.Declares id)
    (store : FactStore) :
    (visitPackages (program.summarizeThen settings answer) packages store).1.isDisposer key =
      store.isDisposer key := by
  induction packages generalizing store with
  | nil => rfl
  | cons package later ih =>
    rw [List.forall_mem_cons] at elsewhere
    refine (ih elsewhere.2 _).trans ((program.turn settings package store).run_keeps ?_)
    rintro candidate member rfl
    have declares :=
      (program.turn settings package store).declares_of_mem_allCandidates member
    have candidateKey := (program.turn settings package store).keyOf_candidate member
    rw [distinct.injective candidateKey hasKey] at declares
    exact elsewhere.1 declares

theorem turnsFrom_program (packages : List Package) (store : FactStore) :
    ∀ turn ∈ program.turnsFrom settings packages store, turn.program = program := by
  induction packages generalizing store with
  | nil => simp [turnsFrom]
  | cons package later ih =>
    exact List.forall_mem_cons.mpr ⟨rfl, ih _⟩

/-- A package has the same findings when its turn is over and in the end. -/
theorem answers_of_visit (distinct : program.DistinctKeys) (packages : List Package)
    (apart : packages.Pairwise fun earlier later => ∀ id, earlier.Calls id → ¬later.Declares id)
    (store final : FactStore) (answers : List (List Finding))
    (visited : visitPackages (program.analyzeTurn settings) packages store = (final, .ok answers)) :
    answers = packages.map (program.requestedFindings settings final) := by
  induction packages generalizing store answers with
  | nil =>
    cases visited
    rfl
  | cons package later ih =>
    rw [List.pairwise_cons] at apart
    obtain ⟨first, others, rfl, accepted, laterVisit⟩ :=
      (visitPackages_cons_ok _ package later store final answers).mp visited
    rw [List.map_cons, ih apart.2 _ others laterVisit]
    have here : first = program.requestedFindings settings
        (program.turn settings package store).run.1 package := by
      change (program.turn settings package store).run.2.map _ = _ at accepted
      cases outcome : (program.turn settings package store).run.2 with
      | error error =>
        rw [outcome] at accepted
        cases accepted
      | ok report =>
        rw [outcome] at accepted
        cases accepted
        rfl
    rw [here]
    have reached : (visitPackages (program.analyzeTurn settings) later
        (program.turn settings package store).run.1).1 = final := congrArg Prod.fst laterVisit
    have same : program.checkPackage settings (program.turn settings package store).run.1
        package = program.checkPackage settings final package := by
      apply checkPackage_congr
      intro key member
      obtain ⟨id, calls, hasKey⟩ := calls_of_mem_calledKeys member
      rw [← reached]
      exact (program.visitPackages_keeps settings _ distinct hasKey later
        (fun other inLater => apart.1 other inLater id calls) _).symm
    unfold requestedFindings
    rw [same]

theorem flatMap_requestedFindings (store : FactStore) (packages : List Package) :
    packages.flatMap (program.requestedFindings settings store) =
      (packages.filter Package.requested).flatMap (program.checkPackage settings store) := by
  induction packages with
  | nil => rfl
  | cons package later ih =>
    rw [List.flatMap_cons, ih, List.filter_cons, requestedFindings]
    cases package.requested <;> rfl

end Order

section Loaded

variable {settings : Settings} {tree : SourceTree} {patterns : List String} {program : Program}

theorem levelPackages_flatten (loaded : loadProgram settings tree patterns = .ok program) :
    program.levelPackages program.levels.flatten = program.packages := by
  have stored : (List.range program.packages.length).map (fun index =>
      program.packages[index]?) = program.packages.map some :=
    List.ext_getElem (by simp) (by simp +contextual)
  rw [levelPackages, program.levels_flatten loaded]
  calc (List.range program.packages.length).filterMap (fun index => program.packages[index]?)
    _ = ((List.range program.packages.length).map fun index =>
          program.packages[index]?).filterMap id := by rw [List.filterMap_map]; rfl
    _ = (program.packages.map some).filterMap id := by rw [stored]
    _ = program.packages := by rw [List.filterMap_map]; exact List.filterMap_some

/-- The turns are taken in the order of the packages. -/
theorem packagesOf_levels (loaded : loadProgram settings tree patterns = .ok program) :
    program.packagesOf program.levels = program.packages.filter fun package =>
      !package.isStandard := by
  have strung : program.packagesOf program.levels =
      (program.levelPackages program.levels.flatten).filter fun package =>
        !package.isStandard := by
    rw [levelPackages, List.filterMap_flatten, List.filter_flatten, List.map_map]
    rfl
  rw [strung, levelPackages_flatten loaded]

/-- With the packages one after another, an analysis is a summary with a check in
the end. -/
theorem analyze_eq_summarize_check (loaded : loadProgram settings tree patterns = .ok program)
    (distinct : program.DistinctKeys) (analysis : AnalysisSettings) (store : FactStore) :
    ∃ final reports,
      program.summarize analysis store = (final, .ok reports) ∧
        program.analyze analysis store = (final, .ok (program.check analysis final)) := by
  have ran : ∀ turn ∈ program.turns analysis store, ∃ report, turn.run.2 = .ok report := by
    intro turn member
    rw [Summarizer.run_ok_iff_consistent]
    apply Summarizer.consistent_of_distinctKeys
    rw [program.turnsFrom_program analysis _ store turn member]
    exact distinct
  have succeeds {α : Type} (answer : FactStore → Package → SummaryReport → α) :
      ∃ answers, (visitPackages (program.summarizeThen analysis answer)
        (program.packagesOf program.levels) store).2 = .ok answers := by
    rcases program.visitPackages_turns analysis answer (program.packagesOf program.levels) store
      with ⟨answers, accepted, _⟩ | ⟨turn, member, error, failed, _⟩
    · exact ⟨answers, accepted⟩
    · obtain ⟨report, accepted⟩ := ran turn member
      rw [failed] at accepted
      cases accepted
  obtain ⟨reports, summarized⟩ := succeeds fun _ package report => (package.path, report)
  obtain ⟨answers, analyzed⟩ := succeeds fun after package _ =>
    program.requestedFindings analysis after package
  obtain ⟨final, ended⟩ : ∃ final, (visitPackages (program.analyzeTurn analysis)
      (program.packagesOf program.levels) store).1 = final := ⟨_, rfl⟩
  have analysisVisit : visitPackages (program.analyzeTurn analysis)
      (program.packagesOf program.levels) store = (final, .ok answers) := Prod.ext ended analyzed
  refine ⟨final, reports, ?_, ?_⟩
  · rw [summarize_eq, visitLevels_ok_iff]
    exact Prod.ext ((program.visitPackages_store analysis _ _ _ store).trans ended) summarized
  · rw [analyze_ok]
    refine ⟨answers, analysisVisit, ?_⟩
    have apart := ((program.concerns_apart loaded).imp fun {_ _} apart id calls =>
      apart id (.inl calls)).filter fun package => !package.isStandard
    rw [← packagesOf_levels loaded] at apart
    rw [program.answers_of_visit analysis distinct _ apart store final answers analysisVisit,
      ← List.flatMap_def, flatMap_requestedFindings, packagesOf_levels loaded]
    unfold check requestedPackages
    rw [List.filter_filter, List.filter_filter]
    simp only [Bool.and_comm]

end Loaded

end Program
end Unclosed
