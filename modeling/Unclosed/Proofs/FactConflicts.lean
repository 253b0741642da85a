import Unclosed.Proofs.LeastDisposers
import Unclosed.Proofs.PackageTurns

/-!
When summaries conflict.  Functions that already have a fact are left out, so a
fact can only meet another one of the same package.  Declarations may share a
key there: every function named by the blank identifier has the key of that name.
-/

namespace Unclosed

namespace Summarizer

variable (summarizer : Summarizer)

def Consistent : Prop :=
  ∀ first ∈ summarizer.candidates, ∀ second ∈ summarizer.candidates,
    first.key = second.key → summarizer.verdict first = summarizer.verdict second

theorem free_of_mem_verdicts :
    ∀ fact ∈ summarizer.verdicts.1, summarizer.facts.written.get? fact.1.text = none := by
  intro fact member
  rw [verdicts_facts] at member
  obtain ⟨candidate, isCandidate, rfl⟩ := List.mem_map.mp member
  have unwritten := ((summarizer.mem_candidates candidate).mp isCandidate).2
  exact (summarizer.facts.contains_eq_false_iff candidate.key).mp unwritten

theorem run_ok_iff_consistent :
    (∃ report, summarizer.run.2 = .ok report) ↔ summarizer.Consistent := by
  rw [run_ok_iff, writeAll_ok_iff _ _ summarizer.free_of_mem_verdicts, verdicts_facts]
  constructor
  · intro agree first firstMember second secondMember sameKey
    exact agree _ (List.mem_map.mpr ⟨first, firstMember, rfl⟩) _
      (List.mem_map.mpr ⟨second, secondMember, rfl⟩) sameKey
  · intro consistent fact factMember other otherMember sameKey
    obtain ⟨first, firstMember, rfl⟩ := List.mem_map.mp factMember
    obtain ⟨second, secondMember, rfl⟩ := List.mem_map.mp otherMember
    exact consistent first firstMember second secondMember sameKey

theorem conflict_of_run (error : FactError) (failed : summarizer.run.2 = .error error) :
    ∃ first ∈ summarizer.candidates, ∃ second ∈ summarizer.candidates,
      first.key = second.key ∧ summarizer.verdict first ≠ summarizer.verdict second ∧
        error = .conflict first.key (summarizer.verdict first) (summarizer.verdict second) := by
  have refused : (writeAll summarizer.facts summarizer.verdicts.1).2 = .error error := by
    rw [run_eq] at failed
    cases outcome : (writeAll summarizer.facts summarizer.verdicts.1).2 with
    | ok done =>
      rw [outcome] at failed
      cases failed
    | error other =>
      rw [outcome] at failed
      cases failed
      rfl
  obtain ⟨key, existing, fact, is, differs, member, source⟩ :=
    conflict_of_writeAll summarizer.facts summarizer.verdicts.1 error refused
  have before : (key, existing) ∈ summarizer.verdicts.1 := by
    rcases source with found | earlier
    · rw [summarizer.free_of_mem_verdicts (key, fact) member] at found
      cases found
    · exact earlier
  rw [verdicts_facts] at member before
  obtain ⟨second, secondMember, secondFact⟩ := List.mem_map.mp member
  obtain ⟨first, firstMember, firstFact⟩ := List.mem_map.mp before
  cases secondFact
  obtain ⟨sameKey, rfl⟩ := Prod.mk.inj firstFact
  exact ⟨first, firstMember, second, secondMember, sameKey, differs, sameKey ▸ is⟩

end Summarizer

namespace Program

section Summaries

variable (program : Program) (settings : AnalysisSettings) (store : FactStore)

theorem summarize_turns :
    (∃ reports, (program.summarize settings store).2 = .ok reports ∧
      ∀ turn ∈ program.turns settings store, ∃ report, turn.run.2 = .ok report) ∨
    (∃ turn ∈ program.turns settings store, ∃ error, turn.run.2 = .error error ∧
      (program.summarize settings store).2 = .error error) := by
  rw [summarize_eq, (program.visitLevels_eq _ program.levels store).1]
  exact program.visitPackages_turns settings _ (program.packagesOf program.levels) store

theorem written_of_summarize (reports : List (String × SummaryReport))
    (accepted : (program.summarize settings store).2 = .ok reports) (turn : Summarizer)
    (member : turn ∈ program.turns settings store)
    (ran : ∃ report, turn.run.2 = .ok report) (candidate : Candidate)
    (isCandidate : candidate ∈ turn.candidates) :
    (program.summarize settings store).1.written.get? candidate.key.text =
      some (turn.verdict candidate) := by
  rw [summarize_eq] at accepted ⊢
  rw [(program.visitLevels_eq _ program.levels store).2 reports accepted]
  exact turn.written_of_run ran _
    ((program.turn_extends settings _ (program.packagesOf program.levels) store).2 turn member)
    candidate isCandidate

/-- A program is summarized without a failure exactly when no package has two
candidates under one key with different verdicts.  A failure names such a pair,
and without one all verdicts are written. -/
theorem summarize_ok_iff_consistent :
    ((∃ reports, (program.summarize settings store).2 = .ok reports) ↔
        ∀ turn ∈ program.turns settings store, turn.Consistent) ∧
      (∀ error, (program.summarize settings store).2 = .error error →
        ∃ turn ∈ program.turns settings store,
          ∃ first ∈ turn.candidates, ∃ second ∈ turn.candidates,
            first.key = second.key ∧ turn.verdict first ≠ turn.verdict second ∧
              error = .conflict first.key (turn.verdict first) (turn.verdict second)) ∧
      (∀ reports, (program.summarize settings store).2 = .ok reports →
        ∀ turn ∈ program.turns settings store, ∀ candidate ∈ turn.candidates,
          (program.summarize settings store).1.written.get? candidate.key.text =
            some (turn.verdict candidate)) := by
  simp only [← Summarizer.run_ok_iff_consistent]
  rcases program.summarize_turns settings store with
    ⟨reports, accepted, ran⟩ | ⟨turn, member, error, failed, is⟩
  · refine ⟨⟨fun _ => ran, fun _ => ⟨reports, accepted⟩⟩, ?_, ?_⟩
    · intro error failed
      rw [accepted] at failed
      cases failed
    · intro others _ turn member candidate isCandidate
      exact program.written_of_summarize settings store reports accepted turn member
        (ran turn member) candidate isCandidate
  · refine ⟨⟨?_, ?_⟩, ?_, ?_⟩
    · rintro ⟨reports, accepted⟩
      rw [is] at accepted
      cases accepted
    · intro ran
      obtain ⟨report, accepted⟩ := ran turn member
      rw [failed] at accepted
      cases accepted
    · intro other isOther
      rw [is] at isOther
      cases isOther
      exact ⟨turn, member, turn.conflict_of_run error failed⟩
    · intro reports accepted
      rw [is] at accepted
      cases accepted

end Summaries

def blankPackage : Package where
  path := "app"
  name := "app"
  files := [⟨⟨0⟩, ⟨"app.go", ⟨"app", ⟨0, 0⟩⟩, [],
    [.func (Summarizer.sampleRelease "_" 10),
     .func { Summarizer.sampleRelease "_" 20 with body := some (.mk [] ⟨23, 24⟩) }], ⟨0, 30⟩⟩⟩]
  names := []
  info := {
    types := .empty
    defs := ⟨[(Summarizer.sampleSite 10, ⟨0⟩), (Summarizer.sampleSite 11, ⟨2⟩),
      (Summarizer.sampleSite 20, ⟨1⟩), (Summarizer.sampleSite 21, ⟨3⟩)]⟩
    uses := ⟨[(Summarizer.sampleSite 14, ⟨2⟩)]⟩
    selections := ⟨[(⟨⟨0⟩, ⟨13, 14⟩⟩, .interfaceMethod "Close" ⟨2⟩)]⟩
    errors := [] }
  imports := []
  isStandard := false
  requested := true

def blankProgram : Program :=
  { Summarizer.sampleProgram with
    symbols :=
      ⟨(List.replicate 2 (Summarizer.sampleSymbol .func "_" ⟨3⟩ (some (.function "app" "_")))
        ++ List.replicate 2 (Summarizer.sampleSymbol .param "c" ⟨1⟩ none)).toArray⟩
    packages := [blankPackage] }

/-- The two functions share a key, so the second verdict is refused. -/
theorem blank_functions_conflict :
    (blankProgram.summarize {} .empty).1.snapshot = [(⟨"app._"⟩, true)] ∧
      ¬∀ turn ∈ blankProgram.turns {} .empty, turn.Consistent := by
  refine ⟨by decide +kernel, ?_⟩
  rw [← (summarize_ok_iff_consistent blankProgram {} .empty).1]
  rintro ⟨reports, accepted⟩
  have failed : (blankProgram.summarize {} .empty).2.isOk = false := by decide +kernel
  rw [accepted] at failed
  cases failed

end Program
end Unclosed
