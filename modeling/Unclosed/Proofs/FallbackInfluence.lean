import Unclosed.Proofs.FallbackReads
import Unclosed.Proofs.LeastDisposers

/-!
What the facts of an earlier run about the program's own functions can change.
A candidate that was not visited yet is looked up in the fallback, so such facts
do have influence.  It goes one way only: with more disposers in the fallback
more functions turn out to be disposers and fewer findings are left.  Hence the
fallback has no influence exactly when the two extreme ones give the same result.
In a program whose functions come before their callers it has none.
-/

namespace Unclosed

/-! ### Maps that differ at some keys -/

namespace OrderedMap

variable {α : Type}

def insertAll (map : OrderedMap α) (keys : List String) (value : α) : OrderedMap α :=
  keys.foldl (fun map key => map.insert key value) map

theorem get?_insertAll (map : OrderedMap α) (keys : List String) (value : α) (key : String) :
    (map.insertAll keys value).get? key = if key ∈ keys then some value else map.get? key := by
  unfold insertAll
  induction keys generalizing map with
  | nil => rfl
  | cons first later ih =>
    rw [List.foldl_cons, ih, get?_insert]
    by_cases inLater : key ∈ later
    · rw [if_pos inLater, if_pos (List.mem_cons_of_mem first inLater)]
    · rw [if_neg inLater]
      simp only [List.mem_cons, inLater, or_false]

theorem insertAll_agreesOutside (map : OrderedMap α) (keys : List String) (value : α) :
    (map.insertAll keys value).AgreesOutside keys map := by
  intro key outside
  rw [get?_insertAll, if_neg outside]

end OrderedMap

/-! ### Stores that differ in the fallback -/

namespace FactStore

theorem isDisposer_eq_true_iff (store : FactStore) (key : FuncKey) :
    store.isDisposer key = true ↔ store.fact? key = some true := by
  unfold isDisposer
  cases store.fact? key with
  | none => simp
  | some fact => simp

/-- The same facts are written in both stores, and every disposer in the fallback
of the first is one in the fallback of the second. -/
structure Below (low high : FactStore) : Prop where
  written : low.written = high.written
  fallback : ∀ text, low.fallback.get? text = some true → high.fallback.get? text = some true

namespace Below

theorem refl (store : FactStore) : Below store store := ⟨rfl, fun _ => id⟩

theorem trans {low middle high : FactStore} (first : Below low middle)
    (second : Below middle high) : Below low high :=
  ⟨first.written.trans second.written,
   fun text known => second.fallback text (first.fallback text known)⟩

variable {low high : FactStore}

theorem isDisposer_of (below : Below low high) (key : FuncKey)
    (known : low.isDisposer key = true) : high.isDisposer key = true := by
  rw [isDisposer_eq_true_iff] at known ⊢
  unfold fact? at known ⊢
  rw [← below.written]
  cases found : low.written.get? key.text with
  | some fact =>
    rw [found] at known
    exact known
  | none =>
    rw [found] at known
    exact below.fallback key.text known

end Below

section Extremes

variable {keys : List String} {fallback other : OrderedMap Bool}
  (agrees : other.AgreesOutside keys fallback)

include agrees

theorem none_below :
    Below (.withFallback (fallback.insertAll keys false)) (.withFallback other) := by
  refine ⟨rfl, ?_⟩
  intro text known
  change (fallback.insertAll keys false).get? text = some true at known
  rw [OrderedMap.get?_insertAll] at known
  by_cases inside : text ∈ keys
  · rw [if_pos inside] at known
    cases known
  · rw [if_neg inside] at known
    exact (agrees text inside).trans known

theorem below_all : Below (.withFallback other) (.withFallback (fallback.insertAll keys true)) := by
  refine ⟨rfl, ?_⟩
  intro text known
  change (fallback.insertAll keys true).get? text = some true
  rw [OrderedMap.get?_insertAll]
  by_cases inside : text ∈ keys
  · rw [if_pos inside]
  · rw [if_neg inside, ← agrees text inside]
    exact known

end Extremes

end FactStore

namespace Summarizer

/-- The same functions were visited, and every disposer of the first is one of the
second. -/
structure VerdictsBelow (low high : Verdicts) : Prop where
  visited : ∀ symbol, low.lookup symbol = none ↔ high.lookup symbol = none
  disposers : ∀ symbol, isDisposer low symbol = true → isDisposer high symbol = true

section Below

variable {summarizer : Summarizer} {store : FactStore}
  (below : FactStore.Below summarizer.facts store) {low high : Verdicts}

include below

section

variable (order : VerdictsBelow low high)
include order

theorem isKnown_onStore (symbol : SymbolId) (known : summarizer.isKnown low symbol = true) :
    (summarizer.onStore store).isKnown high symbol = true := by
  unfold isKnown at known ⊢
  dsimp only [onStore]
  cases visited : low.lookup symbol with
  | some verdict =>
    rw [visited] at known
    have positive := order.disposers symbol
      ((isDisposer_eq_true_iff low symbol).mpr (by rw [visited]; exact congrArg some known))
    rw [(isDisposer_eq_true_iff high symbol).mp positive]
  | none =>
    rw [visited] at known
    rw [(order.visited symbol).mp visited]
    cases keyed : (summarizer.program.symbols.get? symbol).bind Symbol.key with
    | none =>
      simp only [keyed] at known
      cases known
    | some key =>
      simp only [keyed] at known
      exact below.isDisposer_of key known

theorem judged_onStore (candidate : Candidate) (described : summarizer.Describes candidate)
    (positive : summarizer.judged low candidate = true) :
    (summarizer.onStore store).judged high candidate = true := by
  simp only [judged, Bool.or_eq_true] at positive ⊢
  refine positive.imp (order.disposers candidate.symbol) ?_
  intro closes
  exact summarizer.closesParams_of_known candidate described _ _
    (fun symbol _ known => isKnown_onStore below order symbol known) closes

theorem revisit_onStore (candidate : Candidate) (described : summarizer.Describes candidate) :
    VerdictsBelow (summarizer.revisit low candidate)
      ((summarizer.onStore store).revisit high candidate) := by
  refine ⟨?_, ?_⟩
  · intro symbol
    rw [lookup_revisit, lookup_revisit]
    by_cases same : symbol = candidate.symbol
    · simp only [if_pos same, reduceCtorEq]
    · simp only [if_neg same]
      exact order.visited symbol
  · intro symbol
    rw [isDisposer_eq_true_iff, isDisposer_eq_true_iff, lookup_revisit, lookup_revisit]
    by_cases same : symbol = candidate.symbol
    · simp only [if_pos same, Option.some.injEq]
      exact judged_onStore below order candidate described
    · simp only [if_neg same, ← isDisposer_eq_true_iff]
      exact order.disposers symbol

end

theorem fullSweep_onStore (all : List Candidate)
    (described : ∀ candidate ∈ all, summarizer.Describes candidate)
    (order : VerdictsBelow low high) :
    VerdictsBelow (summarizer.fullSweep all low)
      ((summarizer.onStore store).fullSweep all high) := by
  induction all generalizing low high with
  | nil => exact order
  | cons candidate later ih =>
    obtain ⟨here, others⟩ := List.forall_mem_cons.mp described
    exact ih others (revisit_onStore below order candidate here)

theorem fullSweeps_onStore (all : List Candidate)
    (described : ∀ candidate ∈ all, summarizer.Describes candidate) (count : Nat)
    (order : VerdictsBelow low high) :
    VerdictsBelow (summarizer.fullSweeps all count low)
      ((summarizer.onStore store).fullSweeps all count high) := by
  induction count generalizing low high with
  | zero => exact order
  | succ count ih => exact ih (fullSweep_onStore below all described order)

/-- A disposer stays one when the fallback knows more disposers. -/
theorem verdict_onStore (candidate : Candidate) (positive : summarizer.verdict candidate = true) :
    (summarizer.onStore store).verdict candidate = true := by
  unfold verdict at positive ⊢
  rw [summarizer.finalVerdicts_same.isDisposer_eq] at positive
  rw [(summarizer.onStore store).finalVerdicts_same.isDisposer_eq, candidates_onStore below.written]
  have unvisited : VerdictsBelow [] [] := ⟨fun _ => .rfl, fun _ => id⟩
  have order := fullSweeps_onStore below summarizer.candidates summarizer.describes_of_mem
    summarizer.settings.maxSummaryPasses unvisited
  exact order.disposers candidate.symbol positive

end Below

/-! ### Runs between two that agree -/

theorem verdicts_between (summarizer : Summarizer) (middle high : FactStore)
    (first : FactStore.Below summarizer.facts middle) (second : FactStore.Below middle high)
    (agree : ∀ candidate ∈ summarizer.candidates,
      summarizer.verdict candidate = (summarizer.onStore high).verdict candidate) :
    (summarizer.onStore middle).verdicts.1 = summarizer.verdicts.1 := by
  rw [verdicts_facts, verdicts_facts, candidates_onStore first.written]
  apply List.map_congr_left
  intro candidate member
  have above : FactStore.Below (summarizer.onStore middle).facts high := second
  have lower := verdict_onStore first candidate
  have upper := verdict_onStore above candidate
  have equal : (summarizer.onStore middle).verdict candidate = summarizer.verdict candidate := by
    apply Bool.eq_iff_iff.mpr
    exact ⟨fun positive => (agree candidate member).trans (upper positive), lower⟩
  rw [equal]

theorem run_between (summarizer : Summarizer) (middle high : FactStore)
    (first : FactStore.Below summarizer.facts middle) (second : FactStore.Below middle high)
    (agree : ∀ candidate ∈ summarizer.candidates,
      summarizer.verdict candidate = (summarizer.onStore high).verdict candidate) :
    FactStore.Below summarizer.run.1 (summarizer.onStore middle).run.1 ∧
      FactStore.Below (summarizer.onStore middle).run.1 (summarizer.onStore high).run.1 ∧
      ∀ {α : Type} (answer : α), (summarizer.onStore middle).run.2.map (fun _ => answer) =
        summarizer.run.2.map fun _ => answer := by
  obtain ⟨middleStore, middleOutcome⟩ := run_onStore first.written
    (summarizer.verdicts_between middle high first second agree)
  obtain ⟨highStore, _⟩ := run_onStore (first.trans second).written
    (summarizer.verdicts_between high high (first.trans second) (.refl high) agree)
  rw [middleStore, highStore]
  refine ⟨⟨rfl, ?_⟩, ⟨rfl, second.fallback⟩, middleOutcome⟩
  rw [summarizer.run_extends.fallback]
  exact first.fallback

end Summarizer

namespace Program

section Between

variable (program : Program) (settings : AnalysisSettings)

theorem analyzeTurn_ok (store : FactStore) (package : Package) (findings : List Finding) :
    (program.analyzeTurn settings store package).2 = .ok findings ↔
      (∃ report, (program.turn settings package store).run.2 = .ok report) ∧
        findings = program.requestedFindings settings
          (program.turn settings package store).run.1 package := by
  change (program.turn settings package store).run.2.map (fun _ =>
    program.requestedFindings settings (program.turn settings package store).run.1 package) =
      .ok findings ↔ _
  cases (program.turn settings package store).run.2 with
  | error error =>
    constructor
    · rintro ⟨⟩
    · rintro ⟨⟨_, ⟨⟩⟩, _⟩
  | ok report =>
    constructor
    · rintro ⟨⟩
      exact ⟨⟨report, rfl⟩, rfl⟩
    · rintro ⟨_, rfl⟩
      rfl

theorem requestedFindings_sublist (low high : FactStore) (below : FactStore.Below low high)
    (package : Package) :
    (program.requestedFindings settings high package).Sublist
      (program.requestedFindings settings low package) := by
  unfold requestedFindings
  split
  · exact program.checkPackage_sublist settings low high package
      fun key _ => below.isDisposer_of key
  · exact .refl _

theorem verdicts_eq_of_visits (package : Package) (later : List Package)
    (low high lowFinal highFinal : FactStore) (lows highs : List (List Finding))
    (below : FactStore.Below low high)
    (lowRan : ∃ report, (program.turn settings package low).run.2 = .ok report)
    (highRan : ∃ report, (program.turn settings package high).run.2 = .ok report)
    (lowVisit : visitPackages (program.analyzeTurn settings) later
      (program.turn settings package low).run.1 = (lowFinal, .ok lows))
    (highVisit : visitPackages (program.analyzeTurn settings) later
      (program.turn settings package high).run.1 = (highFinal, .ok highs))
    (agree : lowFinal.written = highFinal.written) :
    ∀ candidate ∈ (program.turn settings package low).candidates,
      (program.turn settings package low).verdict candidate =
        (program.turn settings package high).verdict candidate := by
  intro candidate member
  -- Each verdict is in the final store of its run, and the written parts of these are one.
  have lowExtends := (program.turn_extends settings (fun after package _ =>
    program.requestedFindings settings after package) later
    (program.turn settings package low).run.1).1
  have highExtends := (program.turn_extends settings (fun after package _ =>
    program.requestedFindings settings after package) later
    (program.turn settings package high).run.1).1
  change FactStore.Extends _ (visitPackages (program.analyzeTurn settings) later _).1
    at lowExtends highExtends
  rw [lowVisit] at lowExtends
  rw [highVisit] at highExtends
  have written : (program.turn settings package low).facts.written = high.written := below.written
  have inHigh : candidate ∈ (program.turn settings package high).candidates :=
    Summarizer.candidates_onStore written ▸ member
  have lowWritten := Summarizer.written_of_run _ lowRan lowFinal lowExtends candidate member
  have highWritten := Summarizer.written_of_run _ highRan highFinal highExtends candidate inHigh
  rw [agree, highWritten] at lowWritten
  exact (Option.some.inj lowWritten).symm

/-- When two visits end with the same written facts, a visit that starts between
them ends with these too, and its findings are between theirs. -/
theorem visits_between (packages : List Package) (low middle high lowFinal highFinal : FactStore)
    (lows highs : List (List Finding)) (first : FactStore.Below low middle)
    (second : FactStore.Below middle high)
    (lowVisit : visitPackages (program.analyzeTurn settings) packages low = (lowFinal, .ok lows))
    (highVisit :
      visitPackages (program.analyzeTurn settings) packages high = (highFinal, .ok highs))
    (agree : lowFinal.written = highFinal.written) :
    ∃ middles,
      visitPackages (program.analyzeTurn settings) packages middle =
        (⟨lowFinal.written, middle.fallback⟩, .ok middles) ∧
      middles.flatten.Sublist lows.flatten ∧ highs.flatten.Sublist middles.flatten := by
  induction packages generalizing low middle high lows highs with
  | nil =>
    cases lowVisit
    cases highVisit
    refine ⟨[], ?_, .refl _, .refl _⟩
    rw [first.written]
    rfl
  | cons package later ih =>
    obtain ⟨lowHere, lowLater, rfl, lowTurn, lowRest⟩ :=
      (visitPackages_cons_ok _ package later low lowFinal lows).mp lowVisit
    obtain ⟨highHere, highLater, rfl, highTurn, highRest⟩ :=
      (visitPackages_cons_ok _ package later high highFinal highs).mp highVisit
    obtain ⟨lowRan, rfl⟩ := (program.analyzeTurn_ok settings low package lowHere).mp lowTurn
    obtain ⟨highRan, rfl⟩ := (program.analyzeTurn_ok settings high package highHere).mp highTurn
    obtain ⟨firstAfter, secondAfter, sameOutcome⟩ :=
      (program.turn settings package low).run_between middle high first second
        (program.verdicts_eq_of_visits settings package later low high lowFinal highFinal lowLater
          highLater (first.trans second) lowRan highRan lowRest highRest agree)
    obtain ⟨middleLater, middleRest, below, above⟩ :=
      ih _ _ _ lowLater highLater firstAfter secondAfter lowRest highRest
    have middleTurn : (program.analyzeTurn settings middle package).2 =
        .ok (program.requestedFindings settings (program.turn settings package middle).run.1
          package) := by
      obtain ⟨report, ran⟩ := lowRan
      exact (sameOutcome _).trans (by rw [ran]; rfl)
    have kept : (program.turn settings package middle).run.1.fallback = middle.fallback :=
      (program.turn settings package middle).run_extends.fallback
    refine ⟨program.requestedFindings settings (program.turn settings package middle).run.1
      package :: middleLater, ?_, ?_, ?_⟩
    · refine (visitPackages_cons_ok _ package later middle _ _).mpr
        ⟨_, middleLater, rfl, middleTurn, ?_⟩
      rw [← kept]
      exact middleRest
    · rw [List.flatten_cons, List.flatten_cons]
      exact (program.requestedFindings_sublist settings _ _ firstAfter package).append below
    · rw [List.flatten_cons, List.flatten_cons]
      exact (program.requestedFindings_sublist settings _ _ secondAfter package).append above

theorem analyze_ok (store final : FactStore) (findings : List Finding) :
    program.analyze settings store = (final, .ok findings) ↔
      ∃ answers,
        visitPackages (program.analyzeTurn settings) (program.packagesOf program.levels) store =
          (final, .ok answers) ∧
        findings = Finding.sort answers.flatten := by
  simp only [← visitLevels_ok_iff]
  rw [analyze_eq]
  obtain ⟨after, outcome⟩ := program.visitLevels (program.analyzeTurn settings) program.levels store
  cases outcome with
  | error error =>
    constructor
    · rintro ⟨⟩
    · rintro ⟨_, ⟨⟩, _⟩
  | ok answers =>
    constructor
    · rintro ⟨⟩
      exact ⟨answers, rfl, rfl⟩
    · rintro ⟨_, ⟨⟩, rfl⟩
      rfl

/-- Between two analyses with the same result every analysis has that result. -/
theorem analyze_between (low middle high : FactStore) (written : OrderedMap Bool)
    (findings : List Finding) (first : FactStore.Below low middle)
    (second : FactStore.Below middle high)
    (lowRun : program.analyze settings low = (⟨written, low.fallback⟩, .ok findings))
    (highRun : program.analyze settings high = (⟨written, high.fallback⟩, .ok findings)) :
    program.analyze settings middle = (⟨written, middle.fallback⟩, .ok findings) := by
  obtain ⟨lows, lowVisit, lowSorted⟩ := (program.analyze_ok settings low _ findings).mp lowRun
  obtain ⟨highs, highVisit, highSorted⟩ :=
    (program.analyze_ok settings high _ findings).mp highRun
  obtain ⟨middles, middleVisit, below, above⟩ :=
    program.visits_between settings (program.packagesOf program.levels) low middle high _ _ lows
      highs first second lowVisit highVisit rfl
  -- Sorting keeps the number of findings, and a sublist of equal length is the list.
  have sameLength : highs.flatten.length = lows.flatten.length := by
    rw [← (List.mergeSort_perm highs.flatten Finding.precedes).length_eq,
      ← (List.mergeSort_perm lows.flatten Finding.precedes).length_eq]
    exact congrArg List.length (highSorted.symm.trans lowSorted)
  have extremes : highs.flatten = lows.flatten := (above.trans below).eq_of_length sameLength
  have same : middles.flatten = lows.flatten := below.antisymm (extremes ▸ above)
  refine (program.analyze_ok settings middle _ findings).mpr ⟨middles, middleVisit, ?_⟩
  rw [same]
  exact lowSorted

/-! ### Facts about the program's own functions -/

/-- The keys of the functions of the program's own packages that take values to
close. -/
def ownKeys : List String :=
  (program.packages.filter fun package => !package.isStandard).flatMap fun package =>
    (program.turn settings package .empty).allCandidates.map fun candidate => candidate.key.text

/-- Let the fallback say anything about the program's own functions and leave the
rest of it fixed.  Every analysis then succeeds with the same facts and findings
exactly when it does so for the fallback that calls none of these functions a
disposer and for the one that calls all of them disposers.  If own functions are
asked about only when they have a fact or a verdict, the analyses are the same in
any case. -/
theorem analyze_ignores_own_facts (fallback : OrderedMap Bool) :
    ((∃ written findings, ∀ other,
        other.AgreesOutside (program.ownKeys settings) fallback →
        program.analyze settings (.withFallback other) = (⟨written, other⟩, .ok findings)) ↔
      ∃ written findings, ∀ verdict,
        program.analyze settings
            (.withFallback (fallback.insertAll (program.ownKeys settings) verdict)) =
          (⟨written, fallback.insertAll (program.ownKeys settings) verdict⟩, .ok findings)) ∧
    ((∀ turn ∈ program.turns settings (.withFallback fallback),
        turn.Answered (program.ownKeys settings)) →
      ∀ other, other.AgreesOutside (program.ownKeys settings) fallback →
        (program.analyze settings (.withFallback other)).1.written =
            (program.analyze settings (.withFallback fallback)).1.written ∧
          (program.analyze settings (.withFallback other)).2 =
            (program.analyze settings (.withFallback fallback)).2) := by
  refine ⟨⟨?_, ?_⟩, ?_⟩
  · rintro ⟨written, findings, ignored⟩
    exact ⟨written, findings, fun verdict =>
      ignored _ (fallback.insertAll_agreesOutside (program.ownKeys settings) verdict)⟩
  · rintro ⟨written, findings, extremes⟩
    refine ⟨written, findings, ?_⟩
    intro other agrees
    exact program.analyze_between settings _ _ _ written findings
      (FactStore.none_below agrees) (FactStore.below_all agrees) (extremes false) (extremes true)
  · intro answered other agrees
    exact program.analyze_agrees settings
      ⟨rfl, fun key outside => (agrees key outside).symm⟩ answered

end Between

def orderedProgram : Program :=
  { Summarizer.sampleProgram with
    packages := [{ Summarizer.samplePackage with
      files := [⟨⟨0⟩, ⟨"app.go", ⟨"app", ⟨0, 0⟩⟩, [],
        [.func (Summarizer.sampleRelease "release" 20),
         .func (Summarizer.sampleRelay "relay" 10 "release")], ⟨0, 30⟩⟩⟩] }] }

/-- `ping` and `pong` hand over to each other.  Neither closes anything, but each
is a disposer once the fallback calls the other one so.  Functions in order are
safe from that. -/
theorem sample_own_facts :
    (¬∃ written findings, ∀ other : OrderedMap Bool,
      other.AgreesOutside (Summarizer.sampleProgram.ownKeys {}) .empty →
      Summarizer.sampleProgram.analyze {} (.withFallback other) =
        (⟨written, other⟩, .ok findings)) ∧
    ∀ other : OrderedMap Bool, other.AgreesOutside (orderedProgram.ownKeys {}) .empty →
      (orderedProgram.analyze {} (.withFallback other)).1.written.entries =
        [("app.relay", true), ("app.release", true)] := by
  constructor
  · rw [(analyze_ignores_own_facts Summarizer.sampleProgram {} .empty).1]
    rintro ⟨written, findings, extremes⟩
    have none : (Summarizer.sampleProgram.analyze {} (.withFallback
        (OrderedMap.empty.insertAll (Summarizer.sampleProgram.ownKeys {}) false))).1.written.get?
          "app.ping" = some false := by decide +kernel
    have all : (Summarizer.sampleProgram.analyze {} (.withFallback
        (OrderedMap.empty.insertAll (Summarizer.sampleProgram.ownKeys {}) true))).1.written.get?
          "app.ping" = some true := by decide +kernel
    rw [extremes] at none all
    rw [none] at all
    cases all
  · intro other agrees
    have answered : ∀ turn ∈ orderedProgram.turns {} (.withFallback .empty),
        turn.Answered (orderedProgram.ownKeys {}) := by decide +kernel
    rw [((analyze_ignores_own_facts orderedProgram {} .empty).2 answered other agrees).1]
    decide +kernel

end Program
end Unclosed
