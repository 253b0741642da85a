import Unclosed.Proofs.PackageTurns
import Unclosed.Proofs.ScanFacts

/-!
When the facts of an earlier run are not read.  A function is looked up in the
fallback only if it has neither a verdict nor a written fact.  So where functions
come before those that call them, changes of the fallback at their keys go
unnoticed, also by an analysis that fails.
-/

namespace Unclosed

/-! ### Agreement outside of some keys -/

def OrderedMap.AgreesOutside {α : Type} (map : OrderedMap α) (keys : List String)
    (other : OrderedMap α) : Prop :=
  ∀ key, key ∉ keys → map.get? key = other.get? key

namespace FactStore

structure AgreesOutside (store : FactStore) (keys : List String) (other : FactStore) : Prop where
  written : store.written = other.written
  fallback : store.fallback.AgreesOutside keys other.fallback

theorem AgreesOutside.isDisposer_eq {store other : FactStore} {keys : List String}
    (agrees : store.AgreesOutside keys other) (key : FuncKey)
    (answered : key.text ∈ keys → store.contains key = true) :
    other.isDisposer key = store.isDisposer key := by
  unfold isDisposer fact?
  rw [← agrees.written]
  cases found : store.written.get? key.text with
  | some fact => rfl
  | none =>
    have unwritten := (store.contains_eq_false_iff key).mpr found
    have outside : key.text ∉ keys := by
      intro inside
      rw [answered inside] at unwritten
      cases unwritten
    dsimp only
    rw [agrees.fallback key.text outside]

end FactStore

namespace Summarizer

/-- Functions with one of the keys are asked about when they have a written fact
or a verdict: by the candidates that call them, and by the check of the package. -/
structure Answered (summarizer : Summarizer) (keys : List String) : Prop where
  visits : ∀ entry ∈ summarizer.candidates.zipIdx, ∀ symbol ∈ entry.1.callees,
    ∀ key ∈ (summarizer.program.symbols.get? symbol).bind Symbol.key, key.text ∈ keys →
      summarizer.facts.contains key = true ∨
        ∃ earlier ∈ summarizer.candidates.take entry.2, earlier.symbol = symbol
  checks : summarizer.package.requested = true →
    ∀ key ∈ summarizer.program.calledKeys summarizer.package, key.text ∈ keys →
      summarizer.run.1.contains key = true

instance (summarizer : Summarizer) (keys : List String) : Decidable (summarizer.Answered keys) :=
  decidable_of_iff (_ ∧ _) ⟨fun both => ⟨both.1, both.2⟩, fun answered => ⟨answered.1, answered.2⟩⟩

section Agreement

variable {summarizer : Summarizer} {keys : List String} {store : FactStore}
  (agrees : summarizer.facts.AgreesOutside keys store)

include agrees

theorem isKnown_agrees (verdicts : Verdicts) (symbol : SymbolId)
    (answered : ∀ key, (summarizer.program.symbols.get? symbol).bind Symbol.key = some key →
      key.text ∈ keys → summarizer.facts.contains key = true ∨ verdicts.lookup symbol ≠ none) :
    (summarizer.onStore store).isKnown verdicts symbol = summarizer.isKnown verdicts symbol := by
  unfold isKnown
  dsimp only [onStore]
  cases visited : verdicts.lookup symbol with
  | some verdict => rfl
  | none =>
    cases keyed : (summarizer.program.symbols.get? symbol).bind Symbol.key with
    | none => rfl
    | some key =>
      apply agrees.isDisposer_eq key
      intro inside
      exact (answered key keyed inside).resolve_right fun isVisited => isVisited visited

theorem revisit_agrees (verdicts : Verdicts) (candidate : Candidate)
    (described : summarizer.Describes candidate)
    (answered : ∀ symbol ∈ candidate.callees, ∀ key,
      (summarizer.program.symbols.get? symbol).bind Symbol.key = some key → key.text ∈ keys →
        summarizer.facts.contains key = true ∨ verdicts.lookup symbol ≠ none) :
    (summarizer.onStore store).revisit verdicts candidate =
      summarizer.revisit verdicts candidate := by
  have closes : (summarizer.onStore store).closesParams
        ((summarizer.onStore store).isKnown verdicts) candidate =
      summarizer.closesParams (summarizer.isKnown verdicts) candidate :=
    summarizer.closesParams_congr candidate described _ _ fun symbol called =>
      isKnown_agrees agrees verdicts symbol (answered symbol called)
  unfold revisit judged
  rw [closes]

variable (answered : summarizer.Answered keys)
include answered

/-- The rest of a sweep, with the candidates in front of the place visited. -/
theorem revisits_agree (rest : List Candidate) (place : Nat) (verdicts : Verdicts)
    (remaining : summarizer.candidates.drop place = rest)
    (visited : ∀ earlier ∈ summarizer.candidates.take place,
      verdicts.lookup earlier.symbol ≠ none) :
    rest.foldl (summarizer.onStore store).revisit verdicts =
      rest.foldl summarizer.revisit verdicts := by
  induction rest generalizing place verdicts with
  | nil => rfl
  | cons candidate later ih =>
    obtain ⟨here, remainingLater⟩ := place_of_drop remaining
    have step := revisit_agrees agrees verdicts candidate
      (summarizer.describes_of_mem candidate (List.mem_of_getElem? here)) (by
        intro symbol called key keyed inside
        refine (answered.visits (candidate, place) (List.mem_zipIdx_iff_getElem?.mpr here) symbol
          called key keyed inside).imp_right ?_
        rintro ⟨earlier, before, rfl⟩
        exact visited earlier before)
    rw [List.foldl_cons, List.foldl_cons, step]
    apply ih (place + 1) _ remainingLater
    intro earlier before
    rw [lookup_revisit]
    by_cases same : earlier.symbol = candidate.symbol
    · simp only [if_pos same, ne_eq, reduceCtorEq, not_false_eq_true]
    · rw [if_neg same]
      rw [List.take_add_one, here] at before
      rcases List.mem_append.mp before with earlierStill | justVisited
      · exact visited earlier earlierStill
      · exact absurd (congrArg Candidate.symbol (List.mem_singleton.mp justVisited)) same

theorem fullSweeps_agree (count : Nat) (verdicts : Verdicts) :
    (summarizer.onStore store).fullSweeps summarizer.candidates count verdicts =
      summarizer.fullSweeps summarizer.candidates count verdicts := by
  induction count generalizing verdicts with
  | zero => rfl
  | succ count ih =>
    have swept := revisits_agree agrees answered summarizer.candidates 0 verdicts List.drop_zero
      (by
        intro earlier before
        cases before)
    unfold fullSweeps fullSweep
    rw [swept]
    exact ih _

theorem verdicts_agree : (summarizer.onStore store).verdicts.1 = summarizer.verdicts.1 := by
  rw [verdicts_eq_sweptFacts, verdicts_eq_sweptFacts]
  unfold sweptFacts
  rw [candidates_onStore agrees.written]
  dsimp only [onStore]
  have swept := fullSweeps_agree agrees answered summarizer.settings.maxSummaryPasses []
  unfold onStore at swept
  rw [swept]

theorem run_agrees :
    summarizer.run.1.AgreesOutside keys (summarizer.onStore store).run.1 ∧
      ∀ {α : Type} (answer : α), (summarizer.onStore store).run.2.map (fun _ => answer) =
        summarizer.run.2.map fun _ => answer := by
  obtain ⟨sameStore, sameOutcome⟩ :=
    run_onStore agrees.written (verdicts_agree agrees answered)
  refine ⟨⟨?_, ?_⟩, sameOutcome⟩
  · rw [sameStore]
  · rw [sameStore, summarizer.run_extends.fallback]
    exact agrees.fallback

end Agreement

end Summarizer

namespace Program

variable (program : Program) (settings : AnalysisSettings) {keys : List String}
  {store other : FactStore}

theorem requestedFindings_agrees (agrees : store.AgreesOutside keys other) (package : Package)
    (answered : package.requested = true → ∀ key ∈ program.calledKeys package,
      key.text ∈ keys → store.contains key = true) :
    program.requestedFindings settings other package =
      program.requestedFindings settings store package := by
  unfold requestedFindings
  by_cases requested : package.requested = true
  · rw [if_pos requested, if_pos requested]
    apply program.checkPackage_congr settings other store package
    intro key called
    exact agrees.isDisposer_eq key (answered requested key called)
  · rw [if_neg requested, if_neg requested]

theorem analyzeTurn_agrees (agrees : store.AgreesOutside keys other) (package : Package)
    (answered : (program.turn settings package store).Answered keys) :
    (program.analyzeTurn settings store package).1.AgreesOutside keys
        (program.analyzeTurn settings other package).1 ∧
      (program.analyzeTurn settings other package).2 =
        (program.analyzeTurn settings store package).2 := by
  have agreesHere : (program.turn settings package store).facts.AgreesOutside keys other := agrees
  obtain ⟨agreesAfter, sameOutcome⟩ := Summarizer.run_agrees agreesHere answered
  refine ⟨agreesAfter, ?_⟩
  have sameFindings := program.requestedFindings_agrees settings agreesAfter package answered.checks
  change (program.turn settings package other).run.2.map (fun _ =>
      program.requestedFindings settings (program.turn settings package other).run.1 package) =
    (program.turn settings package store).run.2.map fun _ =>
      program.requestedFindings settings (program.turn settings package store).run.1 package
  rw [← sameOutcome, ← sameFindings]
  rfl

theorem visitPackages_agrees (packages : List Package) (agrees : store.AgreesOutside keys other)
    (answered : ∀ turn ∈ program.turnsFrom settings packages store, turn.Answered keys) :
    (visitPackages (program.analyzeTurn settings) packages store).1.AgreesOutside keys
        (visitPackages (program.analyzeTurn settings) packages other).1 ∧
      (visitPackages (program.analyzeTurn settings) packages other).2 =
        (visitPackages (program.analyzeTurn settings) packages store).2 := by
  induction packages generalizing store other with
  | nil => exact ⟨agrees, rfl⟩
  | cons package later ih =>
    obtain ⟨here, others⟩ := List.forall_mem_cons.mp answered
    obtain ⟨agreesAfter, sameOutcome⟩ := program.analyzeTurn_agrees settings agrees package here
    obtain ⟨agreesFinally, sameOthers⟩ := ih agreesAfter others
    rw [visitPackages_cons, visitPackages_cons, sameOutcome, sameOthers]
    exact ⟨agreesFinally, rfl⟩

theorem visitLevels_agrees (levels : List (List Nat)) (agrees : store.AgreesOutside keys other)
    (answered : ∀ turn ∈ program.turnsFrom settings (program.packagesOf levels) store,
      turn.Answered keys) :
    (program.visitLevels (program.analyzeTurn settings) levels store).1.AgreesOutside keys
        (program.visitLevels (program.analyzeTurn settings) levels other).1 ∧
      (program.visitLevels (program.analyzeTurn settings) levels other).2 =
        (program.visitLevels (program.analyzeTurn settings) levels store).2 := by
  induction levels generalizing store other with
  | nil => exact ⟨agrees, rfl⟩
  | cons level later ih =>
    unfold packagesOf at answered
    rw [List.flatMap_cons, program.turnsFrom_append settings fun after package _ =>
      program.requestedFindings settings after package] at answered
    obtain ⟨here, others⟩ := List.forall_mem_append.mp answered
    obtain ⟨agreesAfter, sameOutcome⟩ := program.visitPackages_agrees settings _ agrees here
    unfold visitLevels
    dsimp only
    change ∀ turn ∈ program.turnsFrom settings _
      (visitPackages (program.analyzeTurn settings) _ store).1, _ at others
    generalize visitPackages (program.analyzeTurn settings)
      ((program.levelPackages level).filter fun package => !package.isStandard) store = left
      at agreesAfter sameOutcome others ⊢
    generalize visitPackages (program.analyzeTurn settings)
      ((program.levelPackages level).filter fun package => !package.isStandard) other = right
      at agreesAfter sameOutcome ⊢
    obtain ⟨leftAfter, leftOutcome⟩ := left
    obtain ⟨rightAfter, rightOutcome⟩ := right
    cases sameOutcome
    cases leftOutcome with
    | error error => exact ⟨agreesAfter, rfl⟩
    | ok first =>
      obtain ⟨agreesFinally, sameOthers⟩ := ih agreesAfter others
      dsimp only
      rw [sameOthers]
      exact ⟨agreesFinally, rfl⟩

/-- An analysis that never asks the fallback about some keys is the same whatever
the fallback says about them. -/
theorem analyze_agrees (agrees : store.AgreesOutside keys other)
    (answered : ∀ turn ∈ program.turns settings store, turn.Answered keys) :
    (program.analyze settings other).1.written = (program.analyze settings store).1.written ∧
      (program.analyze settings other).2 = (program.analyze settings store).2 := by
  obtain ⟨agreesFinally, sameOutcome⟩ :=
    program.visitLevels_agrees settings program.levels agrees answered
  rw [analyze_eq, analyze_eq, sameOutcome]
  exact ⟨agreesFinally.written.symm, rfl⟩

end Program
end Unclosed
