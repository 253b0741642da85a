import Unclosed.Analysis.Run
import Unclosed.Proofs.FactWrites
import Unclosed.Proofs.SummaryPasses

/-!
The packages of a program take turns, level after level.  A program is done when
every turn was; a failure ends the levels but not its own level, and the first
one is the answer.  So the levels can be strung together to one list of packages.
-/

namespace Unclosed

namespace Summarizer

variable (summarizer : Summarizer)

/-! ### Outcomes of one run -/

theorem run_extends :
    FactStore.Extends summarizer.facts summarizer.run.1 :=
  writeAll_extends summarizer.facts summarizer.verdicts.1

theorem run_store :
    summarizer.run.1 = (writeAll summarizer.facts summarizer.verdicts.1).1 :=
  rfl

theorem run_outcome {α : Type} (answer : α) :
    (summarizer.run.2.map fun _ => answer) =
      (writeAll summarizer.facts summarizer.verdicts.1).2.map fun _ => answer := by
  rw [run_eq]
  cases (writeAll summarizer.facts summarizer.verdicts.1).2 with
  | ok done => rfl
  | error error => rfl

theorem run_ok_iff :
    (∃ report, summarizer.run.2 = .ok report) ↔
      (writeAll summarizer.facts summarizer.verdicts.1).2 = .ok () := by
  rw [run_eq]
  cases (writeAll summarizer.facts summarizer.verdicts.1).2 with
  | ok done => exact ⟨fun _ => rfl, fun _ => ⟨_, rfl⟩⟩
  | error error =>
    constructor
    · rintro ⟨_, ⟨⟩⟩
    · rintro ⟨⟩

/-- A run that succeeds writes its verdicts, and they stay. -/
theorem written_of_run (accepted : ∃ report, summarizer.run.2 = .ok report) (final : FactStore)
    (extended : FactStore.Extends summarizer.run.1 final) (candidate : Candidate)
    (member : candidate ∈ summarizer.candidates) :
    final.written.get? candidate.key.text = some (summarizer.verdict candidate) := by
  have wrote := summarizer.run_ok_iff.mp accepted
  apply extended.written
  apply written_of_writeAll summarizer.facts summarizer.verdicts.1 wrote
    (candidate.key, summarizer.verdict candidate)
  rw [verdicts_facts]
  exact List.mem_map.mpr ⟨candidate, member, rfl⟩

/-! ### The same package on two stores -/

def onStore (store : FactStore) : Summarizer :=
  { summarizer with facts := store }

section OnStore

variable {summarizer : Summarizer} {store : FactStore}
  (sameWritten : summarizer.facts.written = store.written)

include sameWritten

theorem candidates_onStore : (summarizer.onStore store).candidates = summarizer.candidates := by
  unfold candidates
  apply List.filter_congr
  intro candidate _
  dsimp only [onStore]
  unfold FactStore.contains
  rw [sameWritten]

/-- Equal verdicts are written alike whatever the fallback is. -/
theorem run_onStore
    (sameVerdicts : (summarizer.onStore store).verdicts.1 = summarizer.verdicts.1) :
    (summarizer.onStore store).run.1 = ⟨summarizer.run.1.written, store.fallback⟩ ∧
      ∀ {α : Type} (answer : α), (summarizer.onStore store).run.2.map (fun _ => answer) =
        summarizer.run.2.map fun _ => answer := by
  obtain ⟨written, fallback⟩ := store
  change summarizer.facts.written = written at sameWritten
  subst sameWritten
  have wrote := writeAll_withFallback summarizer.facts.written summarizer.facts.fallback fallback
    summarizer.verdicts.1
  refine ⟨?_, ?_⟩
  · rw [run_store, run_store, sameVerdicts]
    exact congrArg Prod.fst wrote
  · intro α answer
    rw [run_outcome, run_outcome, sameVerdicts]
    exact congrArg (fun written => written.2.map fun _ => answer) wrote

end OnStore

end Summarizer

namespace Program

variable (program : Program) (settings : AnalysisSettings)

/-! ### Lists of packages -/

section Visits

variable {α : Type} (step : FactStore → Package → FactStore × Except FactError α)

theorem visitPackages_cons (package : Package) (later : List Package) (store : FactStore) :
    visitPackages step (package :: later) store =
      ((visitPackages step later (step store package).1).1, do
        return (← (step store package).2) ::
          (← (visitPackages step later (step store package).1).2)) :=
  rfl

theorem visitPackages_cons_ok (package : Package) (later : List Package)
    (store final : FactStore) (answers : List α) :
    visitPackages step (package :: later) store = (final, .ok answers) ↔
      ∃ first others, answers = first :: others ∧ (step store package).2 = .ok first ∧
        visitPackages step later (step store package).1 = (final, .ok others) := by
  rw [visitPackages_cons]
  obtain ⟨after, outcome⟩ := visitPackages step later (step store package).1
  cases (step store package).2 with
  | error error =>
    constructor
    · rintro ⟨⟩
    · rintro ⟨_, _, _, ⟨⟩, _⟩
  | ok first =>
    cases outcome with
    | error error =>
      constructor
      · rintro ⟨⟩
      · rintro ⟨_, _, _, _, ⟨⟩⟩
    | ok others =>
      constructor
      · rintro ⟨⟩
        exact ⟨first, others, rfl, rfl, rfl⟩
      · rintro ⟨_, _, rfl, ⟨⟩, ⟨⟩⟩
        rfl

theorem visitPackages_append (packages later : List Package) (store : FactStore) :
    visitPackages step (packages ++ later) store =
      ((visitPackages step later (visitPackages step packages store).1).1, do
        return (← (visitPackages step packages store).2) ++
          (← (visitPackages step later (visitPackages step packages store).1).2)) := by
  induction packages generalizing store with
  | nil =>
    rw [List.nil_append]
    change _ = ((visitPackages step later store).1, do
      return [] ++ (← (visitPackages step later store).2))
    obtain ⟨after, outcome⟩ := visitPackages step later store
    cases outcome with
    | error error => rfl
    | ok answers => rfl
  | cons package packages ih =>
    rw [List.cons_append, visitPackages_cons, ih, visitPackages_cons]
    cases (step store package).2 with
    | error error => rfl
    | ok first =>
      cases (visitPackages step packages (step store package).1).2 with
      | error error => rfl
      | ok others =>
        dsimp only
        cases (visitPackages step later
          (visitPackages step packages (step store package).1).1).2 with
        | error error => rfl
        | ok rest => rfl

/-! ### Levels -/

def packagesOf (program : Program) (levels : List (List Nat)) : List Package :=
  levels.flatMap fun level =>
    (program.levelPackages level).filter fun package => !package.isStandard

/-- The answer of a visit of levels is that of a visit of their packages in one
list, and a visit that succeeds leaves the same store. -/
theorem visitLevels_eq (program : Program) (levels : List (List Nat)) (store : FactStore) :
    (program.visitLevels step levels store).2 =
        (visitPackages step (program.packagesOf levels) store).2 ∧
      ∀ answers, (program.visitLevels step levels store).2 = .ok answers →
        program.visitLevels step levels store =
          visitPackages step (program.packagesOf levels) store := by
  induction levels generalizing store with
  | nil => exact ⟨rfl, fun _ _ => rfl⟩
  | cons level later ih =>
    unfold packagesOf at ih ⊢
    rw [List.flatMap_cons, visitPackages_append]
    unfold visitLevels
    dsimp only
    obtain ⟨after, outcome⟩ := visitPackages step
      ((program.levelPackages level).filter fun package => !package.isStandard) store
    cases outcome with
    | error error => exact ⟨rfl, fun answers accepted => by cases accepted⟩
    | ok first =>
      dsimp only
      obtain ⟨sameOutcome, sameVisit⟩ := ih after
      generalize program.visitLevels step later after = visited at sameOutcome sameVisit ⊢
      obtain ⟨final, others⟩ := visited
      cases others with
      | error error =>
        rw [← sameOutcome]
        exact ⟨rfl, fun answers accepted => by cases accepted⟩
      | ok rest =>
        rw [← sameVisit rest rfl]
        exact ⟨rfl, fun _ _ => rfl⟩

theorem visitLevels_ok_iff (program : Program) (levels : List (List Nat))
    (store final : FactStore) (answers : List α) :
    program.visitLevels step levels store = (final, .ok answers) ↔
      visitPackages step (program.packagesOf levels) store = (final, .ok answers) := by
  obtain ⟨sameOutcome, sameVisit⟩ := program.visitLevels_eq step levels store
  constructor
  · intro visited
    rw [← sameVisit answers (by rw [visited]), visited]
  · intro visited
    rw [visited] at sameOutcome
    rw [sameVisit answers sameOutcome, visited]

end Visits

/-! ### Turns -/

def summarizeThen {α : Type} (answer : FactStore → Package → SummaryReport → α) (store : FactStore)
    (package : Package) :
    FactStore × Except FactError α :=
  let (after, outcome) := program.summarizePackage settings store package
  (after, outcome.map (answer after package))

theorem summarize_eq (store : FactStore) :
    program.summarize settings store =
      program.visitLevels
        (program.summarizeThen settings fun _ package report => (package.path, report))
        program.levels store :=
  rfl

def requestedFindings (store : FactStore) (package : Package) :
    List Finding :=
  if package.requested then program.checkPackage settings store package else []

def analyzeTurn :
    FactStore → Package → FactStore × Except FactError (List Finding) :=
  program.summarizeThen settings fun after package _ =>
    program.requestedFindings settings after package

theorem analyze_eq (store : FactStore) :
    program.analyze settings store =
      ((program.visitLevels (program.analyzeTurn settings) program.levels store).1,
       (program.visitLevels (program.analyzeTurn settings) program.levels store).2.map
        fun findings => Finding.sort findings.flatten) :=
  rfl

section Turns

variable (program : Program) (settings : AnalysisSettings)

def turn (package : Package) (store : FactStore) : Summarizer :=
  ⟨program, package, settings, store⟩

def turnsFrom : List Package → FactStore → List Summarizer
  | [], _ => []
  | package :: later, store =>
    program.turn settings package store ::
      turnsFrom later (program.turn settings package store).run.1

def turns (store : FactStore) : List Summarizer :=
  program.turnsFrom settings (program.packagesOf program.levels) store

variable {α : Type} (answer : FactStore → Package → SummaryReport → α)

/-- A visit succeeds when every turn does, and else fails as one of them. -/
theorem visitPackages_turns (packages : List Package) (store : FactStore) :
    (∃ answers,
      (visitPackages (program.summarizeThen settings answer) packages store).2 = .ok answers ∧
      ∀ turn ∈ program.turnsFrom settings packages store, ∃ report, turn.run.2 = .ok report) ∨
    (∃ turn ∈ program.turnsFrom settings packages store, ∃ error, turn.run.2 = .error error ∧
      (visitPackages (program.summarizeThen settings answer) packages store).2 = .error error) := by
  induction packages generalizing store with
  | nil => exact .inl ⟨[], rfl, fun turn member => (List.not_mem_nil member).elim⟩
  | cons package later ih =>
    have visited := visitPackages_cons (program.summarizeThen settings answer) package later store
    unfold turnsFrom
    generalize ran : (program.turn settings package store).run = result
    have stepped : program.summarizeThen settings answer store package =
        (result.1, result.2.map (answer result.1 package)) := by
      rw [← ran]
      rfl
    rw [visited, stepped]
    cases outcome : result.2 with
    | error error =>
      exact .inr ⟨_, List.mem_cons_self, error, by rw [ran, outcome], rfl⟩
    | ok report =>
      rcases ih result.1 with ⟨answers, accepted, others⟩ | ⟨turn, member, error, failed, is⟩
      · left
        refine ⟨answer result.1 package report :: answers, by rw [accepted]; rfl, ?_⟩
        intro turn member
        rcases List.mem_cons.mp member with here | inLater
        · exact ⟨report, by rw [here, ran, outcome]⟩
        · exact others turn inLater
      · right
        exact ⟨turn, List.mem_cons_of_mem _ member, error, failed, by rw [is]; rfl⟩

/-- What a turn wrote is there in the end. -/
theorem turn_extends (packages : List Package) (store : FactStore) :
    FactStore.Extends store
        (visitPackages (program.summarizeThen settings answer) packages store).1 ∧
      ∀ turn ∈ program.turnsFrom settings packages store, FactStore.Extends turn.run.1
        (visitPackages (program.summarizeThen settings answer) packages store).1 := by
  induction packages generalizing store with
  | nil => exact ⟨.refl store, fun turn member => (List.not_mem_nil member).elim⟩
  | cons package later ih =>
    obtain ⟨fromHere, fromLater⟩ := ih (program.turn settings package store).run.1
    refine ⟨(program.turn settings package store).run_extends.trans fromHere, ?_⟩
    intro turn member
    rcases List.mem_cons.mp member with here | inLater
    · rw [here]
      exact fromHere
    · exact fromLater turn inLater

theorem turnsFrom_append (packages later : List Package) (store : FactStore) :
    program.turnsFrom settings (packages ++ later) store =
      program.turnsFrom settings packages store ++ program.turnsFrom settings later
        (visitPackages (program.summarizeThen settings answer) packages store).1 := by
  induction packages generalizing store with
  | nil => rfl
  | cons package packages ih =>
    rw [List.cons_append, turnsFrom, turnsFrom, ih, List.cons_append]
    rfl

end Turns

end Program
end Unclosed
