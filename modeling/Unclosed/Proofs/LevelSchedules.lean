import Unclosed.Proofs.PackageTasks

/-!
The packages of a level are analyzed side by side.  None of them calls what
another one declares, so their tasks spare each other, and every interleaving
ends as if the packages had taken turns.
-/

namespace Unclosed.Program

variable {package : Package} {id : SymbolId} {level : List Nat}

def reportTurn (program : Program) (settings : AnalysisSettings) :
    FactStore → Package → FactStore × Except FactError (SummaryReport × List Finding) :=
  program.summarizeThen settings fun after package report =>
    (report, program.requestedFindings settings after package)

def packagePool (program : Program) (settings : AnalysisSettings) (store : FactStore)
    (packages : List Package) : TaskPool (Except FactError (SummaryReport × List Finding)) :=
  ⟨store, packages.map (program.packageTask settings)⟩

section Plans

variable {α β : Type} {program : Program} {settings : AnalysisSettings}
  {task : Package → Task (Except FactError α)}
  {turn : FactStore → Package → FactStore × Except FactError α}

/-- Left alone, the task of a package does what its turn does, and adds facts about
its own functions only. -/
def Enacts (program : Program) (task : Package → Task (Except FactError α))
    (turn : FactStore → Package → FactStore × Except FactError α) : Prop :=
  ∀ store package, ∃ facts answer,
    Task.Plays (program.Touches package) store (task package) facts (.ok answer) ∧
      turn store package = (store.putAll facts, .ok answer) ∧
      ∀ fact ∈ facts, ∃ id, package.Declares id ∧ program.keyOf id = some fact.1

theorem Enacts.map {answer : FactStore → Package → SummaryReport → α}
    (enacts : program.Enacts task (program.summarizeThen settings answer))
    (result : Package → α → β) :
    program.Enacts (fun package => do return (← task package).map (result package))
      (program.summarizeThen settings fun after package report =>
        result package (answer after package report)) := by
  intro store package
  obtain ⟨facts, given, plays, turned, declared⟩ := enacts store package
  refine ⟨facts, result package given, plays.map (Except.map (result package)), ?_, declared⟩
  unfold summarizeThen at turned ⊢
  generalize program.summarizePackage settings store package = summarized at turned ⊢
  obtain ⟨after, outcome⟩ := summarized
  cases outcome with
  | error error => cases (Prod.ext_iff.mp turned).2
  | ok report =>
    obtain ⟨rfl, accepted⟩ := Prod.mk.inj turned
    rw [← Except.ok.inj accepted]
    rfl

variable (settings) (distinct : program.DistinctKeys)

include distinct

theorem exists_turn_plays (store : FactStore) (package : Package) :
    ∃ facts report,
      Task.Plays (program.Touches package) store (Summarizer.runTask program settings package)
        facts (.ok report) ∧
      program.summarizePackage settings store package = (store.putAll facts, .ok report) ∧
      ∀ fact ∈ facts, ∃ id, package.Declares id ∧ program.keyOf id = some fact.1 := by
  obtain ⟨report, accepted⟩ := (program.turn settings package store).run_ok_iff_consistent.mpr
    (Summarizer.consistent_of_distinctKeys _ distinct)
  obtain ⟨facts, plays, ends, declared⟩ := turn_plays (Prod.ext rfl accepted)
  exact ⟨facts, report, plays, Prod.ext ends.symm accepted, declared⟩

theorem runTask_enacts :
    program.Enacts (Summarizer.runTask program settings)
      (program.summarizeThen settings fun _ _ report => report) := by
  intro store package
  obtain ⟨facts, report, plays, summarized, declared⟩ :=
    exists_turn_plays settings distinct store package
  exact ⟨facts, report, plays, by rw [summarizeThen, summarized]; rfl, declared⟩

theorem packageTask_enacts :
    program.Enacts (program.packageTask settings) (program.reportTurn settings) := by
  intro store package
  obtain ⟨facts, report, plays, summarized, declared⟩ :=
    exists_turn_plays settings distinct store package
  refine ⟨facts, _, packageTask_plays plays, ?_, declared⟩
  rw [reportTurn, summarizeThen, summarized]
  rfl

omit settings

/-- A package does not touch the facts of packages whose functions it neither
calls nor declares. -/
theorem not_touches_of_apart {other : Package} {key : FuncKey}
    (apart : ∀ id, package.Concerns id → ¬other.Declares id)
    (declared : ∃ id, other.Declares id ∧ program.keyOf id = some key) :
    ¬program.Touches package key := by
  rintro ⟨id, concerns, hasKey⟩
  obtain ⟨otherId, declares, otherKey⟩ := declared
  exact apart id concerns (distinct.injective otherKey hasKey ▸ declares)

omit distinct in
/-- Turns on stores that answer alike about what the packages touch. -/
theorem visitPackages_of_plays (enacts : program.Enacts task turn) {store : FactStore}
    {facts : Package → List (FuncKey × Bool)} {answer : Package → α}
    (plays : ∀ package, Task.Plays (program.Touches package) store (task package)
      (facts package) (.ok (answer package)))
    (packages : List Package)
    (apart : packages.Pairwise fun earlier later =>
      ∀ fact ∈ facts earlier, ¬program.Touches later fact.1)
    {current : FactStore}
    (agrees : ∀ package ∈ packages, store.Agrees (program.Touches package) current) :
    visitPackages turn packages current =
      (current.putAll (packages.flatMap facts), .ok (packages.map answer)) := by
  induction packages generalizing current with
  | nil => rfl
  | cons package later ih =>
    rw [List.pairwise_cons] at apart
    rw [List.forall_mem_cons] at agrees
    obtain ⟨added, given, again, turned, _⟩ := enacts current package
    obtain ⟨rfl, same⟩ := ((plays package).transport agrees.1).unique again
    cases same
    rw [visitPackages_cons_ok]
    refine ⟨_, _, rfl, by rw [turned], ?_⟩
    rw [turned, List.flatMap_cons, FactStore.putAll_append]
    refine ih apart.2 fun other member => (agrees.2 other member).trans ?_
    exact .putAll_other (apart.1 other member) current

/-- Packages of which none calls or declares what another one declares end alike in
every interleaving. -/
theorem interleaved_eq_visitPackages (enacts : program.Enacts task turn) {packages : List Package}
    (apart : packages.Pairwise fun first second =>
      (∀ id, first.Concerns id → ¬second.Declares id) ∧
        ∀ id, second.Concerns id → ¬first.Declares id) (store : FactStore) :
    ∃ final answers,
      visitPackages turn packages store = (final, .ok answers) ∧
      ∀ schedule, ((TaskPool.mk store (packages.map task)).play schedule).Finished →
        (TaskPool.mk store (packages.map task)).play schedule =
          ⟨final, answers.map fun answer => .done (.ok answer)⟩ := by
  choose facts answer plays turned declared using enacts store
  have spared {first second : Package} (other : ∀ id, second.Concerns id → ¬first.Declares id) :
      ∀ fact ∈ facts first, ¬program.Touches second fact.1 := fun fact member =>
    not_touches_of_apart distinct other (declared first fact member)
  let plan (package : Package) : TaskPool.Plan (Except FactError α) :=
    ⟨program.Touches package, facts package, .ok (answer package)⟩
  have follows : (TaskPool.mk store (packages.map task)).Follows (packages.map plan)
      (store.putAll (packages.flatMap facts)) := by
    refine ⟨?_, ?_, ?_⟩
    · rw [List.forall₂_map_left_iff, List.forall₂_map_right_iff, List.forall₂_same]
      exact fun package _ => plays package
    · rw [List.pairwise_map]
      exact apart.imp fun both => ⟨spared both.2, spared both.1⟩
    · rw [List.flatMap_map]
  refine ⟨_, _, visitPackages_of_plays enacts plays packages ?_ (fun _ _ => .refl store), ?_⟩
  · exact apart.imp fun both => spared both.2
  · intro schedule finished
    obtain ⟨next, values, follows⟩ := TaskPool.play_follows follows schedule
    have ended : next.map (fun plan => Task.done plan.value) =
        (packages.map answer).map fun answer => .done (.ok answer) := by
      calc next.map (fun plan => Task.done plan.value)
        _ = (next.map TaskPool.Plan.value).map Task.done := by rw [List.map_map]; rfl
        _ = ((packages.map plan).map TaskPool.Plan.value).map Task.done := by rw [values]
        _ = (packages.map answer).map fun answer => .done (.ok answer) := by
            simp only [List.map_map]
            rfl
    rw [follows.finished finished, ended]

end Plans

/-! ### Levels -/

def workers (program : Program) (level : List Nat) : List Package :=
  (program.levelPackages level).filter fun package => !package.isStandard

def calledIds (package : Package) : List SymbolId :=
  package.files.flatMap fun numbered => numbered.file.functions.flatMap fun func =>
    func.callees.filterMap (package.info.calleeOf numbered.id)

def declaredIds (package : Package) : List SymbolId :=
  package.files.flatMap fun numbered => numbered.file.functions.filterMap fun func =>
    package.info.objectOf numbered.id func.name

/-- No package of a level calls what an earlier one of the level declares. -/
def LevelsApart (program : Program) : Prop :=
  ∀ level ∈ program.levels, (program.workers level).Pairwise fun earlier later =>
    ∀ id ∈ calledIds later, id ∉ declaredIds earlier

instance (program : Program) : Decidable program.LevelsApart :=
  inferInstanceAs (Decidable (∀ level ∈ program.levels, List.Pairwise _ _))

theorem mem_calledIds (calls : package.Calls id) : id ∈ calledIds package := by
  obtain ⟨numbered, inFiles, func, inFile, callee, inBody, called⟩ := calls
  exact List.mem_flatMap.mpr ⟨numbered, inFiles, List.mem_flatMap.mpr
    ⟨func, inFile, List.mem_filterMap.mpr ⟨callee, inBody, called⟩⟩⟩

theorem mem_declaredIds (declares : package.Declares id) : id ∈ declaredIds package := by
  obtain ⟨numbered, inFiles, func, inFile, declared⟩ := declares
  exact List.mem_flatMap.mpr ⟨numbered, inFiles, List.mem_filterMap.mpr ⟨func, inFile, declared⟩⟩

section Loaded

variable {settings : Settings} {tree : SourceTree} {patterns : List String} {program : Program}

theorem workers_sublist (loaded : loadProgram settings tree patterns = .ok program)
    (member : level ∈ program.levels) :
    (program.workers level).Sublist program.packages := by
  have listed : (program.levelPackages level).Sublist
      (program.levelPackages program.levels.flatten) :=
    (List.sublist_flatten_of_mem member).filterMap _
  rw [levelPackages_flatten loaded] at listed
  exact List.filter_sublist.trans listed

theorem concerns_apart_level (loaded : loadProgram settings tree patterns = .ok program)
    (levels : program.LevelsApart) (member : level ∈ program.levels) :
    (program.workers level).Pairwise fun first second =>
      (∀ id, first.Concerns id → ¬second.Declares id) ∧
        ∀ id, second.Concerns id → ¬first.Declares id := by
  have forward := (program.concerns_apart loaded).sublist (workers_sublist loaded member)
  refine (forward.and (levels level member)).imp fun ⟨spared, sparing⟩ => ⟨spared, ?_⟩
  rintro id (calls | declares) declared
  · exact sparing id (mem_calledIds calls) (mem_declaredIds declared)
  · exact spared id (.inr declared) declares

/-- Analyzing the packages of a level side by side ends as analyzing them one after
another: no fact is refused, and the store, the reports and the findings are the
same in every interleaving. -/
theorem level_schedule_independent (loaded : loadProgram settings tree patterns = .ok program)
    (distinct : program.DistinctKeys) (levels : program.LevelsApart) {level : List Nat}
    (member : level ∈ program.levels) (analysis : AnalysisSettings) (store : FactStore) :
    ∃ final answers,
      visitPackages (program.reportTurn analysis) (program.workers level) store =
        (final, .ok answers) ∧
      (∀ schedule,
        ((program.packagePool analysis store (program.workers level)).play schedule).Finished →
          (program.packagePool analysis store (program.workers level)).play schedule =
            ⟨final, answers.map fun answer => .done (.ok answer)⟩) ∧
      ∀ schedule, ∃ more,
        ((program.packagePool analysis store (program.workers level)).play
          (schedule ++ more)).Finished := by
  obtain ⟨final, answers, visited, interleaved⟩ := interleaved_eq_visitPackages distinct
    (packageTask_enacts analysis distinct) (concerns_apart_level loaded levels member) store
  refine ⟨final, answers, visited, interleaved, fun schedule => ?_⟩
  obtain ⟨more, finished⟩ := TaskPool.exists_play_finished
    ((program.packagePool analysis store (program.workers level)).play schedule)
  exact ⟨more, by rwa [TaskPool.play_append]⟩

end Loaded

/-- Two packages of one level, one that closes what it is given and one that
does not. -/
def siblingTree : SourceTree :=
  .addFile (.addFile (.addFile .empty "a" "a.go" "package a
type C interface\x7bClose()\x7d
func New()C") "b" "b.go" "package b\nimport q \"a\"
func End(c q.C)\x7bc.Close()\x7d
func use()\x7bc:=q.New();End(c)\x7d") "c" "c.go" "package c\nimport q \"a\"
func Keep(c q.C)\x7b\x7d
func use()\x7bc:=q.New();Keep(c)\x7d"

/-- Each package knows its own fact, whoever comes first. -/
theorem siblings_schedule_independent :
    ∃ program final answers,
      loadProgram { analysis := { disposableInterface := "a.C" } } siblingTree [] = .ok program ∧
        program.DistinctKeys ∧ program.LevelsApart ∧ [1, 2] ∈ program.levels ∧
        visitPackages (program.reportTurn {}) (program.workers [1, 2]) .empty =
          (final, .ok answers) ∧
        (program.packagePool {} .empty (program.workers [1, 2])).play [0, 1, 1, 0, 0, 1] =
          ⟨final, answers.map fun answer => .done (.ok answer)⟩ ∧
        final.snapshot = [(⟨"b.End"⟩, true), (⟨"c.Keep"⟩, false)] := by
  have checked : ((loadProgram { analysis := { disposableInterface := "a.C" } } siblingTree
      []).toOption.map fun program =>
        (decide (program.DistinctKeys ∧ program.LevelsApart ∧ [1, 2] ∈ program.levels ∧
          ((program.packagePool {} .empty (program.workers [1, 2])).play
            [0, 1, 1, 0, 0, 1]).Finished),
          (visitPackages (program.reportTurn {}) (program.workers [1, 2]) .empty).1.snapshot)) =
      some (true, [(⟨"b.End"⟩, true), (⟨"c.Keep"⟩, false)]) := by
    decide +kernel
  cases loaded : loadProgram { analysis := { disposableInterface := "a.C" } } siblingTree [] with
  | error failure =>
    rw [loaded] at checked
    cases checked
  | ok program =>
    rw [loaded] at checked
    simp only [Except.toOption, Option.map_some, Option.some.injEq, Prod.mk.injEq,
      decide_eq_true_eq] at checked
    obtain ⟨⟨distinct, levels, member, finished⟩, facts⟩ := checked
    obtain ⟨final, answers, visited, interleaved, _⟩ :=
      level_schedule_independent loaded distinct levels member {} .empty
    rw [visited] at facts
    exact ⟨program, final, answers, rfl, distinct, levels, member, visited,
      interleaved _ finished, facts⟩

end Unclosed.Program
