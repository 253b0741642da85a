import Unclosed.Proofs.LeastDisposers
import Unclosed.Proofs.PackageTurns

/-!
Summarizing a program again.  A run that succeeds leaves a written fact for every
candidate, and candidates with a written fact are skipped.  So whatever the
settings of a second run are, it writes nothing, and a fact that a small bound on
the passes left negative stays so.
-/

namespace Unclosed

theorem FactStore.Extends.contains {earlier later : FactStore}
    (extended : FactStore.Extends earlier later) (key : FuncKey)
    (written : earlier.contains key = true) : later.contains key = true := by
  unfold FactStore.contains OrderedMap.contains at written ⊢
  obtain ⟨fact, found⟩ := Option.isSome_iff_exists.mp written
  rw [extended.written key.text fact found]
  rfl

namespace Summarizer

variable (summarizer : Summarizer)

def AllWritten (store : FactStore) : Prop :=
  ∀ candidate ∈ summarizer.allCandidates, store.contains candidate.key = true

theorem candidates_eq_nil (written : summarizer.AllWritten summarizer.facts) :
    summarizer.candidates = [] := by
  unfold candidates
  rw [List.filter_eq_nil_iff]
  intro candidate member
  rw [written candidate member]
  exact Bool.false_ne_true

theorem run_of_allWritten (written : summarizer.AllWritten summarizer.facts) :
    summarizer.run = (summarizer.facts, .ok ⟨[], summarizer.allCandidates.length, 0⟩) := by
  have none := summarizer.candidates_eq_nil written
  have quiet : summarizer.verdicts = ([], 0) := by
    unfold verdicts
    dsimp only
    rw [none, List.length_nil, List.range_zero, passes_nil]
    rfl
  rw [run_eq, quiet, none]
  rfl

theorem allWritten_of_run (accepted : ∃ report, summarizer.run.2 = .ok report) :
    summarizer.AllWritten summarizer.run.1 := by
  intro candidate member
  cases before : summarizer.facts.contains candidate.key with
  | true => exact summarizer.run_extends.contains candidate.key before
  | false =>
    have isCandidate := (summarizer.mem_candidates candidate).mpr ⟨member, before⟩
    have written := summarizer.written_of_run accepted _ (.refl _) candidate isCandidate
    unfold FactStore.contains OrderedMap.contains
    rw [written]
    rfl

end Summarizer

namespace Program

section Again

variable (program : Program) (settings : AnalysisSettings)

def skippedReport (package : Package) (store : FactStore) : String × SummaryReport :=
  (package.path, ⟨[], (program.turn settings package store).allCandidates.length, 0⟩)

variable {α : Type} (answer : FactStore → Package → SummaryReport → α)

/-- A visit that succeeds leaves the functions of all its packages written. -/
theorem allWritten_of_visit (packages : List Package) (store final : FactStore)
    (answers : List α)
    (visited : visitPackages (program.summarizeThen settings answer) packages store =
      (final, .ok answers)) :
    ∀ package ∈ packages, (program.turn settings package store).AllWritten final := by
  induction packages generalizing store answers with
  | nil =>
    intro package member
    cases member
  | cons first later ih =>
    obtain ⟨here, others, rfl, accepted, laterVisit⟩ :=
      (visitPackages_cons_ok _ first later store final answers).mp visited
    intro package member
    rcases List.mem_cons.mp member with rfl | inLater
    · have ran : ∃ report, (program.turn settings package store).run.2 = .ok report := by
        change ((program.turn settings package store).run.2.map _) = _ at accepted
        cases outcome : (program.turn settings package store).run.2 with
        | error error =>
          rw [outcome] at accepted
          cases accepted
        | ok report => exact ⟨report, rfl⟩
      have kept := (program.turn_extends settings answer later
        (program.turn settings package store).run.1).1
      have reached : (visitPackages (program.summarizeThen settings answer) later
          (program.turn settings package store).run.1).1 = final := congrArg Prod.fst laterVisit
      rw [reached] at kept
      intro candidate isCandidate
      exact kept.contains candidate.key
        ((program.turn settings package store).allWritten_of_run ran candidate isCandidate)
    · exact ih _ others laterVisit package inLater

theorem visit_of_allWritten (packages : List Package) (store : FactStore)
    (written : ∀ package ∈ packages, (program.turn settings package store).AllWritten store) :
    visitPackages
        (program.summarizeThen settings fun _ package report => (package.path, report))
        packages store =
      (store, .ok (packages.map fun package => program.skippedReport settings package store)) := by
  induction packages with
  | nil => rfl
  | cons package later ih =>
    have skipped := (program.turn settings package store).run_of_allWritten
      (written package List.mem_cons_self)
    have stepped : program.summarizeThen settings
        (fun _ package report => (package.path, report)) store package =
          (store, .ok (program.skippedReport settings package store)) := by
      change ((program.turn settings package store).run.1,
        (program.turn settings package store).run.2.map _) = _
      rw [skipped]
      rfl
    rw [visitPackages_cons, stepped, ih fun other member =>
      written other (List.mem_cons_of_mem package member)]
    rfl

end Again

/-- After a run that succeeded, summarizing the program again with any settings
succeeds and leaves the store as it is: each package is reported with no facts and
all its candidates skipped. -/
theorem summarize_again (program : Program) (settings : AnalysisSettings)
    (store final : FactStore) (reports : List (String × SummaryReport))
    (done : program.summarize settings store = (final, .ok reports))
    (other : AnalysisSettings) :
    program.summarize other final =
      (final, .ok ((program.packagesOf program.levels).map fun package =>
        (package.path, ⟨[], (program.turn other package final).allCandidates.length, 0⟩))) := by
  rw [summarize_eq, visitLevels_ok_iff] at done ⊢
  exact program.visit_of_allWritten other _ final
    (program.allWritten_of_visit settings _ _ store final reports done)

/-- One pass leaves `relay` negative, since it comes before `release`; more passes
later do not change that. -/
theorem sample_summarize_again :
    ∃ final reports,
      Summarizer.sampleProgram.summarize { maxSummaryPasses := 1 } .empty =
          (final, .ok reports) ∧
        final.written.get? "app.relay" = some false ∧
        Summarizer.sampleProgram.summarize { maxSummaryPasses := 5 } final =
          (final, .ok [("app", ⟨[], 4, 0⟩)]) := by
  have facts : (Summarizer.sampleProgram.summarize { maxSummaryPasses := 1 } .empty).1.written.get?
      "app.relay" = some false := by decide +kernel
  have accepted : (Summarizer.sampleProgram.summarize
      { maxSummaryPasses := 1 } .empty).2.isOk = true := by decide +kernel
  have counted : (Summarizer.sampleProgram.turn {} Summarizer.samplePackage
      .empty).allCandidates.length = 4 := by decide +kernel
  generalize ran : Summarizer.sampleProgram.summarize { maxSummaryPasses := 1 } .empty = result
    at facts accepted
  obtain ⟨final, outcome⟩ := result
  cases outcome with
  | error error => cases accepted
  | ok reports =>
    refine ⟨final, reports, rfl, facts, ?_⟩
    rw [summarize_again Summarizer.sampleProgram _ .empty final reports ran]
    change (final, Except.ok [("app", SummaryReport.mk [] (Summarizer.sampleProgram.turn {}
      Summarizer.samplePackage .empty).allCandidates.length 0)]) = _
    rw [counted]

end Program
end Unclosed
