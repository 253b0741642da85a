import Unclosed.Proofs.LevelSchedules

/-!
An analysis gives the packages of a level to a pool of tasks, and goes on to the
next level when all of them are done.  In a program where the packages of a level
leave each other's functions alone, it does not matter how the tasks are
interleaved, nor whether a package is checked in its own task or in the end.
-/

namespace Unclosed.Program

section Schedules

variable {α : Type} (program : Program) (task : Package → Task (Except FactError α))

def levelPool (store : FactStore) (level : List Nat) : TaskPool (Except FactError α) :=
  ⟨store, (program.workers level).map task⟩

/-- Level after level, with a schedule for each.  There is no result if a schedule
ends before the tasks of its level do. -/
def playLevels : List (List Nat) → List (List Nat) → FactStore →
    Option (FactStore × Except FactError (List α))
  | [], _, store => some (store, .ok [])
  | _ :: _, [], _ => none
  | level :: later, schedule :: schedules, store =>
    let pool := (program.levelPool task store level).play schedule
    if pool.Finished then
      match (pool.tasks.filterMap Task.value?).mapM id with
      | .error error => some (pool.store, .error error)
      | .ok first => (playLevels later schedules pool.store).map fun (final, others) =>
          (final, others.map (first ++ ·))
    else none

def summarizeBy (settings : AnalysisSettings) (schedules : List (List Nat)) (store : FactStore) :
    Option (FactStore × Except FactError (List (String × SummaryReport))) :=
  program.playLevels (fun package => do
    return (← Summarizer.runTask program settings package).map fun report =>
      (package.path, report)) program.levels schedules store

def analyzeBy (settings : AnalysisSettings) (schedules : List (List Nat)) (store : FactStore) :
    Option (FactStore × Except FactError (List Finding)) :=
  (program.playLevels (fun package => do
    return (← program.packageTask settings package).map Prod.snd)
    program.levels schedules store).map fun (final, outcome) =>
      (final, outcome.map fun findings => Finding.sort findings.flatten)

end Schedules

section Levels

variable {α : Type} {program : Program} {task : Package → Task (Except FactError α)}
  {turn : FactStore → Package → FactStore × Except FactError α}

theorem mapM_done (answers : List α) :
    ((answers.map fun answer =>
      (.done (.ok answer) : Task (Except FactError α))).filterMap Task.value?).mapM id =
        Except.ok answers := by
  induction answers with
  | nil => rfl
  | cons answer answers ih =>
    change (List.mapM id (Except.ok answer :: List.filterMap Task.value? _)) = _
    rw [List.mapM_cons, ih]
    rfl

theorem playLevels_cons {level : List Nat} {later : List (List Nat)} {schedule : List Nat}
    {schedules : List (List Nat)} {store middle : FactStore} {answers : List α}
    (played : (program.levelPool task store level).play schedule =
      ⟨middle, answers.map fun answer => .done (.ok answer)⟩) :
    program.playLevels task (level :: later) (schedule :: schedules) store =
      (program.playLevels task later schedules middle).map fun result =>
        (result.1, result.2.map (answers ++ ·)) := by
  have finished : (TaskPool.mk middle
      (answers.map fun answer => (.done (.ok answer) : Task (Except FactError α)))).Finished := by
    simp [TaskPool.Finished, Task.value?]
  rw [playLevels]
  dsimp only
  rw [played, if_pos finished, mapM_done]

/-- Whatever the schedules are, the levels end as if the packages had taken turns,
and some schedules bring them to their end. -/
theorem playLevels_eq_visitLevels (distinct : program.DistinctKeys)
    (enacts : program.Enacts task turn) (levels : List (List Nat))
    (apart : ∀ level ∈ levels, (program.workers level).Pairwise fun first second =>
      (∀ id, first.Concerns id → ¬second.Declares id) ∧
        ∀ id, second.Concerns id → ¬first.Declares id) (store : FactStore) :
    (∀ schedules result, program.playLevels task levels schedules store = some result →
      result = program.visitLevels turn levels store) ∧
    ∃ schedules, (program.playLevels task levels schedules store).isSome = true := by
  induction levels generalizing store with
  | nil =>
    refine ⟨?_, [], rfl⟩
    intro schedules result played
    exact (Option.some.inj played).symm
  | cons level later ih =>
    rw [List.forall_mem_cons] at apart
    obtain ⟨middle, answers, visited, interleaved⟩ :=
      interleaved_eq_visitPackages distinct enacts apart.1 store
    obtain ⟨same, rest, through⟩ := ih apart.2 middle
    have turns : program.visitLevels turn (level :: later) store =
        ((program.visitLevels turn later middle).1,
          (program.visitLevels turn later middle).2.map (answers ++ ·)) := by
      rw [workers] at visited
      simp only [visitLevels, visited]
    refine ⟨?_, ?_⟩
    · intro schedules result played
      cases schedules with
      | nil => cases played
      | cons schedule schedules =>
        by_cases finished : ((program.levelPool task store level).play schedule).Finished
        · rw [playLevels_cons (interleaved schedule finished), Option.map_eq_some_iff] at played
          obtain ⟨ended, laterPlayed, rfl⟩ := played
          rw [turns, same schedules ended laterPlayed]
        · rw [playLevels] at played
          dsimp only at played
          rw [if_neg finished] at played
          cases played
    · obtain ⟨schedule, finished⟩ :=
        TaskPool.exists_play_finished (program.levelPool task store level)
      refine ⟨schedule :: rest, ?_⟩
      rw [playLevels_cons (interleaved schedule finished), Option.isSome_map]
      exact through

end Levels

section Loaded

variable {settings : Settings} {tree : SourceTree} {patterns : List String} {program : Program}

/-- However the tasks of the levels are interleaved, analyzing a program whose
functions have distinct keys is summarizing it and then checking the requested
packages: both succeed with the same facts, and the findings are the same in the
same order.  Some schedules bring each of them to its end. -/
theorem scheduled_analysis_eq_summarize_check
    (loaded : loadProgram settings tree patterns = .ok program)
    (distinct : program.DistinctKeys) (levels : program.LevelsApart)
    (analysis : AnalysisSettings) (store : FactStore) :
    ∃ final reports,
      program.summarize analysis store = (final, .ok reports) ∧
      program.analyze analysis store = (final, .ok (program.check analysis final)) ∧
      (∀ schedules result, program.summarizeBy analysis schedules store = some result →
        result = (final, .ok reports)) ∧
      (∀ schedules result, program.analyzeBy analysis schedules store = some result →
        result = (final, .ok (program.check analysis final))) ∧
      (∃ schedules, (program.summarizeBy analysis schedules store).isSome = true) ∧
      ∃ schedules, (program.analyzeBy analysis schedules store).isSome = true := by
  obtain ⟨final, reports, summarized, analyzed⟩ :=
    analyze_eq_summarize_check loaded distinct analysis store
  have apart : ∀ level ∈ program.levels, (program.workers level).Pairwise fun first second =>
      (∀ id, first.Concerns id → ¬second.Declares id) ∧
        ∀ id, second.Concerns id → ¬first.Declares id :=
    fun level member => concerns_apart_level loaded levels member
  obtain ⟨summaries, summaryEnds⟩ := playLevels_eq_visitLevels distinct
    ((runTask_enacts analysis distinct).map fun package report => (package.path, report))
    program.levels apart store
  obtain ⟨analyses, analysisEnds⟩ := playLevels_eq_visitLevels distinct
    ((packageTask_enacts analysis distinct).map fun _ => Prod.snd) program.levels apart store
  refine ⟨final, reports, summarized, analyzed, ?_, ?_, summaryEnds, ?_⟩
  · intro schedules result played
    exact (summaries schedules result played).trans summarized
  · intro schedules result played
    obtain ⟨⟨stored, outcome⟩, ended, rfl⟩ := Option.map_eq_some_iff.mp played
    rw [← analyzed, analyze_eq]
    obtain ⟨rfl, rfl⟩ := Prod.ext_iff.mp (analyses schedules _ ended)
    rfl
  · obtain ⟨schedules, through⟩ := analysisEnds
    exact ⟨schedules, by rwa [analyzeBy, Option.isSome_map]⟩

end Loaded

/-- A package that closes what it is given, and one that hands it a value and
drops another. -/
def importTree : SourceTree :=
  .addFile (.addFile .empty "a" "a.go" "package a
type C interface\x7bClose()\x7d
func New()C
func End(c C)\x7bc.Close()\x7d") "b" "b.go" "package b\nimport q \"a\"
func use()\x7bc:=q.New();q.End(c);q.New()\x7d"

/-- The fact about `End` is there when `b` is checked, so only the dropped value
is reported. -/
theorem import_scheduled_analysis :
    ∃ program final,
      loadProgram { analysis := { disposableInterface := "a.C" } } importTree [] = .ok program ∧
        program.DistinctKeys ∧ program.LevelsApart ∧
        program.analyzeBy {} [[0, 0], [0]] .empty =
          some (final, .ok (program.check {} final)) ∧
        final.snapshot = [(⟨"a.End"⟩, true)] ∧
        (program.check {} final).map Finding.code = ["C1001"] := by
  have checked : ((loadProgram { analysis := { disposableInterface := "a.C" } } importTree
      []).toOption.map fun program =>
        (decide (program.DistinctKeys ∧ program.LevelsApart),
          (program.analyzeBy {} [[0, 0], [0]] .empty).map fun result =>
            (result.1.snapshot, (program.check {} result.1).map Finding.code))) =
      some (true, some ([(⟨"a.End"⟩, true)], ["C1001"])) := by decide +kernel
  cases loaded : loadProgram { analysis := { disposableInterface := "a.C" } } importTree [] with
  | error failure =>
    rw [loaded] at checked
    cases checked
  | ok program =>
    rw [loaded] at checked
    simp only [Except.toOption, Option.map_some, Option.some.injEq, Prod.mk.injEq,
      decide_eq_true_eq, Option.map_eq_some_iff] at checked
    obtain ⟨⟨distinct, levels⟩, result, played, facts, codes⟩ := checked
    obtain ⟨final, reports, _, _, _, analyses, _⟩ :=
      scheduled_analysis_eq_summarize_check loaded distinct levels {} .empty
    cases analyses _ result played
    exact ⟨program, final, rfl, distinct, levels, played, facts, codes⟩

/-- A package that puts a method on a type of another one, through an alias, and a
package of the same level that calls it. -/
def aliasTree : SourceTree :=
  .addFile (.addFile (.addFile .empty "a" "a.go" "package a
type C interface\x7bClose()\x7d
type F struct\x7b\x7d
func (f *F) Close()\x7b\x7d
func New()*F") "b" "b.go" "package b\nimport q \"a\"\ntype G=q.F
func (g *G) End(c q.C)\x7bc.Close()\x7d") "c" "c.go" "package c\nimport q \"a\"
func use()\x7bf:=q.New();f.End(f)\x7d"

/-- Whether the value is reported depends on which package of the level comes
first, although all keys are distinct. -/
theorem alias_method_by_schedule :
    ((loadProgram { analysis := { disposableInterface := "a.C" } } aliasTree []).toOption.map
      fun program =>
        (decide program.DistinctKeys,
          (program.analyzeBy {} [[0, 0, 0], [1, 1, 0, 0, 0]] .empty).map fun result =>
            result.2.toOption.map (List.map Finding.code),
          (program.summarizeBy {} [[0, 0, 0], [1, 1, 0, 0, 0]] .empty).map fun result =>
            (program.check {} result.1).map Finding.code)) =
      some (true, some (some ["C1005"]), some []) := by
  decide +kernel

end Unclosed.Program
