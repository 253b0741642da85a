import Unclosed.Proofs.DisposerSearch

/-!
Queued passes against full sweeps.  A pass visits queued candidates only, and a
candidate is queued again when a function that it calls turns out to be a
disposer.  The main statement: the facts written are those of as many sweeps
over all candidates as the bound on the passes allows.
-/

namespace Unclosed.Summarizer

variable {first second verdicts : Verdicts} {candidate other : Candidate} {summarizer : Summarizer}

/-! ### Visits without a queue -/

section

variable (summarizer : Summarizer) (verdicts : Verdicts) (candidate : Candidate)

def judged : Bool :=
  isDisposer verdicts candidate.symbol
    || summarizer.closesParams (summarizer.isKnown verdicts) candidate

def revisit : Verdicts :=
  (candidate.symbol, summarizer.judged verdicts candidate) :: verdicts

def fullSweep (all : List Candidate) (verdicts : Verdicts) : Verdicts :=
  all.foldl summarizer.revisit verdicts

def fullSweeps (all : List Candidate) : Nat → Verdicts → Verdicts
  | 0, verdicts => verdicts
  | count + 1, verdicts => fullSweeps all count (summarizer.fullSweep all verdicts)

theorem lookup_revisit (symbol : SymbolId) :
    (summarizer.revisit verdicts candidate).lookup symbol =
      if symbol = candidate.symbol then some (summarizer.judged verdicts candidate)
      else verdicts.lookup symbol := by
  unfold revisit
  by_cases same : symbol = candidate.symbol
  · subst same
    rw [if_pos rfl, List.lookup_cons_self]
  · rw [if_neg same, List.lookup_cons, beq_false_of_ne same]

theorem isDisposer_eq_true_iff (symbol : SymbolId) :
    isDisposer verdicts symbol = true ↔ verdicts.lookup symbol = some true := by
  unfold isDisposer
  cases found : verdicts.lookup symbol with
  | none => simp
  | some verdict => simp

theorem isDisposer_revisit (symbol : SymbolId) (before : isDisposer verdicts symbol = true) :
    isDisposer (summarizer.revisit verdicts candidate) symbol = true := by
  rw [isDisposer_eq_true_iff, lookup_revisit]
  by_cases same : symbol = candidate.symbol
  · subst same
    rw [if_pos rfl]
    simp only [judged, before, Bool.true_or]
  · rw [if_neg same]
    exact (isDisposer_eq_true_iff verdicts symbol).mp before

end

/-! ### Verdicts that answer alike -/

/-- Two lists of verdicts with the same latest verdict on every function. -/
def SameVerdicts (first second : Verdicts) : Prop :=
  ∀ symbol, first.lookup symbol = second.lookup symbol

namespace SameVerdicts

theorem refl (verdicts : Verdicts) : SameVerdicts verdicts verdicts := fun _ => rfl

theorem trans {third : Verdicts} (left : SameVerdicts first second)
    (right : SameVerdicts second third) : SameVerdicts first third :=
  fun symbol => (left symbol).trans (right symbol)

theorem symm (same : SameVerdicts first second) : SameVerdicts second first :=
  fun symbol => (same symbol).symm

variable {first second : Verdicts}

variable (same : SameVerdicts first second)
include same

theorem isDisposer_eq (symbol : SymbolId) : isDisposer first symbol = isDisposer second symbol := by
  unfold isDisposer
  rw [same symbol]

theorem isKnown_eq (summarizer : Summarizer) :
    summarizer.isKnown first = summarizer.isKnown second := by
  funext symbol
  unfold isKnown
  rw [same symbol]

theorem judged_eq (summarizer : Summarizer) (candidate : Candidate) :
    summarizer.judged first candidate = summarizer.judged second candidate := by
  unfold judged
  rw [same.isDisposer_eq, same.isKnown_eq]

theorem revisit (summarizer : Summarizer) (candidate : Candidate) :
    SameVerdicts (summarizer.revisit first candidate) (summarizer.revisit second candidate) := by
  intro symbol
  rw [lookup_revisit, lookup_revisit, same.judged_eq, same symbol]

theorem fullSweep (summarizer : Summarizer) (all : List Candidate) :
    SameVerdicts (summarizer.fullSweep all first) (summarizer.fullSweep all second) := by
  induction all generalizing first second with
  | nil => exact same
  | cons candidate later ih => exact ih (same.revisit summarizer candidate)

end SameVerdicts

/-! ### Settled candidates -/

def Settled (summarizer : Summarizer) (verdicts : Verdicts) (candidate : Candidate) : Prop :=
  verdicts.lookup candidate.symbol = some (summarizer.judged verdicts candidate)

theorem Settled.of_same (settled : summarizer.Settled first candidate)
    (same : SameVerdicts first second) :
    summarizer.Settled second candidate := by
  unfold Settled
  rw [← same candidate.symbol, ← same.judged_eq]
  exact settled

theorem Settled.revisit_same (settled : summarizer.Settled verdicts candidate) :
    SameVerdicts (summarizer.revisit verdicts candidate) verdicts := by
  intro symbol
  rw [lookup_revisit]
  by_cases same : symbol = candidate.symbol
  · rw [if_pos same, same]
    exact settled.symm
  · rw [if_neg same]

theorem settled_of_isDisposer (summarizer : Summarizer) (verdicts : Verdicts)
    (candidate : Candidate) (disposer : isDisposer verdicts candidate.symbol = true) :
    summarizer.Settled verdicts candidate := by
  unfold Settled
  rw [(isDisposer_eq_true_iff verdicts candidate.symbol).mp disposer]
  simp only [judged, disposer, Bool.true_or]

theorem settled_of_not_closing (summarizer : Summarizer) (verdicts : Verdicts)
    (candidate : Candidate) (visited : verdicts.lookup candidate.symbol = some false)
    (fails : summarizer.closesParams (summarizer.isKnown verdicts) candidate = false) :
    summarizer.Settled verdicts candidate := by
  have negative : isDisposer verdicts candidate.symbol = false := by
    unfold isDisposer
    rw [visited]
    rfl
  unfold Settled
  rw [visited]
  simp only [judged, negative, fails, Bool.or_false]

/-- A visit that finds no new disposer adds nothing to what is known. -/
theorem isKnown_of_quiet_revisit (summarizer : Summarizer) (verdicts : Verdicts)
    (candidate : Candidate)
    (quiet : summarizer.judged verdicts candidate = true →
      isDisposer verdicts candidate.symbol = true)
    (symbol : SymbolId)
    (known : summarizer.isKnown (summarizer.revisit verdicts candidate) symbol = true) :
    summarizer.isKnown verdicts symbol = true := by
  unfold isKnown at known ⊢
  rw [lookup_revisit] at known
  by_cases same : symbol = candidate.symbol
  · subst same
    rw [if_pos rfl] at known
    rw [(isDisposer_eq_true_iff verdicts candidate.symbol).mp (quiet known)]
  · rw [if_neg same] at known
    exact known

theorem isKnown_revisit_of_ne (summarizer : Summarizer) (verdicts : Verdicts)
    (candidate : Candidate) (symbol : SymbolId) (different : symbol ≠ candidate.symbol) :
    summarizer.isKnown (summarizer.revisit verdicts candidate) symbol =
      summarizer.isKnown verdicts symbol := by
  unfold isKnown
  rw [lookup_revisit, if_neg different]

theorem Settled.not_closing (settled : summarizer.Settled verdicts candidate)
    (negative : isDisposer verdicts candidate.symbol = false) :
    verdicts.lookup candidate.symbol = some false ∧
      summarizer.closesParams (summarizer.isKnown verdicts) candidate = false := by
  unfold Settled at settled
  simp only [judged, negative, Bool.false_or] at settled
  cases closes : summarizer.closesParams (summarizer.isKnown verdicts) candidate with
  | false => rw [closes] at settled; exact ⟨settled, rfl⟩
  | true =>
    rw [closes] at settled
    rw [(isDisposer_eq_true_iff verdicts candidate.symbol).mpr settled] at negative
    cases negative

theorem settled_revisit_self (summarizer : Summarizer) (verdicts : Verdicts)
    (candidate : Candidate) (described : summarizer.Describes candidate) :
    summarizer.Settled (summarizer.revisit verdicts candidate) candidate := by
  have visited := summarizer.lookup_revisit verdicts candidate candidate.symbol
  rw [if_pos rfl] at visited
  cases verdict : summarizer.judged verdicts candidate with
  | true =>
    apply settled_of_isDisposer
    rw [isDisposer_eq_true_iff, visited, verdict]
  | false =>
    rw [verdict] at visited
    apply settled_of_not_closing _ _ _ visited
    have quiet : summarizer.judged verdicts candidate = true →
        isDisposer verdicts candidate.symbol = true := by
      rw [verdict]
      intro impossible
      cases impossible
    rw [judged, Bool.or_eq_false_iff] at verdict
    apply Bool.eq_false_iff.mpr
    intro closes
    have before := summarizer.closesParams_of_known candidate described _ _
      (fun symbol _ => summarizer.isKnown_of_quiet_revisit verdicts candidate quiet symbol)
      closes
    rw [verdict.2] at before
    cases before

theorem Settled.revisit_quiet (settled : summarizer.Settled verdicts other)
    (described : summarizer.Describes other) (candidate : Candidate)
    (quiet : summarizer.judged verdicts candidate = true →
      isDisposer verdicts candidate.symbol = true) :
    summarizer.Settled (summarizer.revisit verdicts candidate) other := by
  cases verdict : isDisposer verdicts other.symbol with
  | true =>
    exact summarizer.settled_of_isDisposer _ other
      (summarizer.isDisposer_revisit verdicts candidate other.symbol verdict)
  | false =>
    obtain ⟨visited, fails⟩ := settled.not_closing verdict
    apply settled_of_not_closing
    · rw [lookup_revisit]
      by_cases same : other.symbol = candidate.symbol
      · rw [if_pos same]
        cases found : summarizer.judged verdicts candidate with
        | false => rfl
        | true =>
          rw [same, quiet found] at verdict
          cases verdict
      · rw [if_neg same]
        exact visited
    · apply Bool.eq_false_iff.mpr
      intro closes
      have before := summarizer.closesParams_of_known other described _ _
        (fun symbol _ => summarizer.isKnown_of_quiet_revisit verdicts candidate quiet symbol)
        closes
      rw [fails] at before
      cases before

/-- A new disposer unsettles its callers at most. -/
theorem Settled.revisit_uncalled (settled : summarizer.Settled verdicts other)
    (described : summarizer.Describes other) (candidate : Candidate)
    (different : other.symbol ≠ candidate.symbol) (uncalled : candidate.symbol ∉ other.callees) :
    summarizer.Settled (summarizer.revisit verdicts candidate) other := by
  unfold Settled at settled ⊢
  rw [lookup_revisit, if_neg different, settled]
  have sameDisposer : isDisposer (summarizer.revisit verdicts candidate) other.symbol =
      isDisposer verdicts other.symbol := by
    unfold isDisposer
    rw [lookup_revisit, if_neg different]
  have sameSearch := summarizer.closesParams_congr other described
    (summarizer.isKnown (summarizer.revisit verdicts candidate)) (summarizer.isKnown verdicts)
    (by
      intro symbol called
      apply isKnown_revisit_of_ne
      intro same
      exact uncalled (same ▸ called))
  unfold judged
  rw [sameDisposer, sameSearch]

/-! ### One step of a pass -/

theorem mem_openCallers (all : List Candidate) (verdicts : Verdicts) (candidate : Candidate)
    (index : Nat) :
    index ∈ openCallers all verdicts candidate ↔
      ∃ caller, all[index]? = some caller ∧ calls caller candidate = true ∧
        isDisposer verdicts caller.symbol = false := by
  simp only [openCallers, List.mem_map, List.mem_filter, List.mem_zipIdx_iff_getElem?,
    Bool.and_eq_true, Bool.not_eq_true', Prod.exists, exists_eq_right]

/-- All that a visit can do: nothing at a place that is not queued, a verdict,
or a new disposer whose callers are queued. -/
theorem visit_cases (summarizer : Summarizer) (all : List Candidate) (state : PassState)
    (candidate : Candidate) (index : Nat) :
    (index ∉ state.queue ∧ summarizer.visit all state (candidate, index) = state) ∨
    (index ∈ state.queue ∧
      (summarizer.judged state.verdicts candidate = true →
        isDisposer state.verdicts candidate.symbol = true) ∧
      summarizer.visit all state (candidate, index) =
        { state with verdicts := summarizer.revisit state.verdicts candidate }) ∨
    (index ∈ state.queue ∧
      isDisposer state.verdicts candidate.symbol = false ∧
      summarizer.judged state.verdicts candidate = true ∧
      summarizer.visit all state (candidate, index) =
        let verdicts := summarizer.revisit state.verdicts candidate
        let callers := openCallers all verdicts candidate
        ⟨verdicts, callers.filter (index < ·) ++ state.queue,
         callers.filter (· < index) ++ state.next⟩) := by
  by_cases queued : index ∈ state.queue
  · have present : state.queue.contains index = true := List.contains_iff_mem.mpr queued
    have unfolded : summarizer.visit all state (candidate, index) =
        if summarizer.judged state.verdicts candidate
            && !isDisposer state.verdicts candidate.symbol then
          let verdicts := summarizer.revisit state.verdicts candidate
          let callers := openCallers all verdicts candidate
          ⟨verdicts, callers.filter (index < ·) ++ state.queue,
           callers.filter (· < index) ++ state.next⟩
        else { state with verdicts := summarizer.revisit state.verdicts candidate } := by
      simp only [visit, present, Bool.not_true, Bool.false_eq_true, if_false]
      rfl
    rw [unfolded]
    by_cases found : summarizer.judged state.verdicts candidate = true
    · cases before : isDisposer state.verdicts candidate.symbol with
      | true => exact .inr (.inl ⟨queued, fun _ => rfl, by simp [found]⟩)
      | false => exact .inr (.inr ⟨queued, rfl, found, by simp [found]⟩)
    · exact .inr (.inl ⟨queued, fun holds => absurd holds found, by simp [found]⟩)
  · refine .inl ⟨queued, ?_⟩
    have absent : state.queue.contains index = false := by
      apply Bool.eq_false_iff.mpr
      intro present
      exact queued (List.contains_iff_mem.mp present)
    simp only [visit, absent, Bool.not_false, if_true]

/-- In front of the given place of a sweep, every candidate that is not settled
is queued: behind the place for this pass, before it for the next. -/
def Covered (summarizer : Summarizer) (all : List Candidate) (place : Nat) (state : PassState) :
    Prop :=
  ∀ index candidate, all[index]? = some candidate →
    (place ≤ index ∧ index ∈ state.queue) ∨ (index < place ∧ index ∈ state.next) ∨
      summarizer.Settled state.verdicts candidate

/-- A settled candidate that a new disposer unsettles is one of its open
callers. -/
theorem Settled.revisit_or_caller (settled : summarizer.Settled verdicts other)
    (described : summarizer.Describes other) (candidate : Candidate)
    (positive : summarizer.judged verdicts candidate = true) (all : List Candidate) (index : Nat)
    (found : all[index]? = some other) :
    summarizer.Settled (summarizer.revisit verdicts candidate) other ∨
      index ∈ openCallers all (summarizer.revisit verdicts candidate) candidate := by
  cases verdict : isDisposer (summarizer.revisit verdicts candidate) other.symbol with
  | true => exact .inl (summarizer.settled_of_isDisposer _ other verdict)
  | false =>
    have different : other.symbol ≠ candidate.symbol := by
      intro same
      have latest := summarizer.lookup_revisit verdicts candidate candidate.symbol
      rw [if_pos rfl, positive, ← same] at latest
      rw [(isDisposer_eq_true_iff _ other.symbol).mpr latest] at verdict
      cases verdict
    by_cases called : candidate.symbol ∈ other.callees
    · refine .inr ((mem_openCallers all _ candidate index).mpr ⟨other, found, ?_, verdict⟩)
      simp only [calls, Bool.and_eq_true, bne_iff_ne, List.contains_iff_mem]
      exact ⟨different, called⟩
    · exact .inl (settled.revisit_uncalled described candidate different called)

def Ready (summarizer : Summarizer) (all : List Candidate) (queue : List Nat)
    (verdicts : Verdicts) : Prop :=
  ∀ index candidate, all[index]? = some candidate →
    index ∈ queue ∨ summarizer.Settled verdicts candidate

section Pass

variable (summarizer : Summarizer) (all : List Candidate)
  (described : ∀ candidate ∈ all, summarizer.Describes candidate)

include described

theorem visit_covered (place : Nat) (state : PassState) (candidate : Candidate)
    (here : all[place]? = some candidate) (covered : summarizer.Covered all place state) :
    summarizer.Covered all (place + 1) (summarizer.visit all state (candidate, place)) := by
  intro index other found
  have otherDescribed := described other (List.mem_of_getElem? found)
  have visitedPlace : index = place → other = candidate := by
    intro same
    rw [same, here] at found
    exact (Option.some.inj found).symm
  rcases summarizer.visit_cases all state candidate place with
    ⟨unqueued, step⟩ | ⟨_, quiet, step⟩ | ⟨_, _, positive, step⟩
  · rw [step]
    rcases covered index other found with ⟨after, queued⟩ | ⟨before, waiting⟩ | settled
    · have behind : index ≠ place := fun same => unqueued (same ▸ queued)
      exact .inl ⟨by omega, queued⟩
    · exact .inr (.inl ⟨by omega, waiting⟩)
    · exact .inr (.inr settled)
  · rw [step]
    by_cases same : index = place
    · rw [visitedPlace same] at otherDescribed ⊢
      exact .inr (.inr (summarizer.settled_revisit_self _ candidate otherDescribed))
    · rcases covered index other found with ⟨after, queued⟩ | ⟨before, waiting⟩ | settled
      · exact .inl ⟨by omega, queued⟩
      · exact .inr (.inl ⟨by omega, waiting⟩)
      · exact .inr (.inr (settled.revisit_quiet otherDescribed candidate quiet))
  · rw [step]
    by_cases same : index = place
    · rw [visitedPlace same] at otherDescribed ⊢
      exact .inr (.inr (summarizer.settled_revisit_self _ candidate otherDescribed))
    · rcases covered index other found with ⟨after, queued⟩ | ⟨before, waiting⟩ | settled
      · exact .inl ⟨by omega, List.mem_append_right _ queued⟩
      · exact .inr (.inl ⟨by omega, List.mem_append_right _ waiting⟩)
      · rcases settled.revisit_or_caller otherDescribed candidate positive all index found with
          still | caller
        · exact .inr (.inr still)
        -- The direction of the requeueing: later callers now, earlier ones next time.
        · rcases Nat.lt_or_gt_of_ne same with before | after
          · exact .inr (.inl ⟨by omega,
              List.mem_append_left _ (List.mem_filter.mpr ⟨caller, decide_eq_true before⟩)⟩)
          · exact .inl ⟨by omega,
              List.mem_append_left _ (List.mem_filter.mpr ⟨caller, decide_eq_true after⟩)⟩

omit described in
theorem visit_same (place : Nat) (state : PassState) (candidate : Candidate)
    (here : all[place]? = some candidate) (covered : summarizer.Covered all place state) :
    SameVerdicts (summarizer.visit all state (candidate, place)).verdicts
      (summarizer.revisit state.verdicts candidate) := by
  rcases summarizer.visit_cases all state candidate place with
    ⟨unqueued, step⟩ | ⟨_, _, step⟩ | ⟨_, _, _, step⟩
  · rw [step]
    rcases covered place candidate here with ⟨_, queued⟩ | ⟨before, _⟩ | settled
    · exact absurd queued unqueued
    · exact absurd before (Nat.lt_irrefl place)
    · exact settled.revisit_same.symm
  · rw [step]
    exact .refl _
  · rw [step]
    exact .refl _

/-! ### Sweeps and passes -/

omit described in
theorem place_of_drop {all later : List Candidate} {place : Nat}
    (remaining : all.drop place = candidate :: later) :
    all[place]? = some candidate ∧ all.drop (place + 1) = later := by
  constructor
  · rw [← List.head?_drop, remaining, List.head?_cons]
  · rw [← List.tail_drop, remaining, List.tail_cons]

theorem visits_simulate (rest : List Candidate) (place : Nat) (state : PassState)
    (plain : Verdicts) (remaining : all.drop place = rest)
    (covered : summarizer.Covered all place state)
    (same : SameVerdicts state.verdicts plain) :
    summarizer.Covered all (place + rest.length)
        ((rest.zipIdx place).foldl (summarizer.visit all) state) ∧
      SameVerdicts ((rest.zipIdx place).foldl (summarizer.visit all) state).verdicts
        (rest.foldl summarizer.revisit plain) := by
  -- Induction on what the sweep has still to visit; every candidate in front stays covered.
  induction rest generalizing place state plain with
  | nil => exact ⟨covered, same⟩
  | cons candidate later ih =>
    obtain ⟨here, remainingLater⟩ := place_of_drop remaining
    have next := ih (place + 1) (summarizer.visit all state (candidate, place))
      (summarizer.revisit plain candidate) remainingLater
      (visit_covered summarizer all described place state candidate here covered)
      ((summarizer.visit_same all place state candidate here covered).trans
        (same.revisit summarizer candidate))
    rw [List.length_cons, Nat.add_comm later.length 1, ← Nat.add_assoc]
    exact next

/-- A sweep leaves every candidate settled or queued for the next one. -/
theorem sweep_simulates (verdicts plain : Verdicts) (queue : List Nat)
    (ready : summarizer.Ready all queue verdicts) (same : SameVerdicts verdicts plain) :
    summarizer.Ready all (summarizer.sweep all verdicts queue).next
        (summarizer.sweep all verdicts queue).verdicts ∧
      SameVerdicts (summarizer.sweep all verdicts queue).verdicts
        (summarizer.fullSweep all plain) := by
  have covered : summarizer.Covered all 0 ⟨verdicts, queue, []⟩ := by
    intro index candidate found
    rcases ready index candidate found with queued | settled
    · exact .inl ⟨Nat.zero_le index, queued⟩
    · exact .inr (.inr settled)
  obtain ⟨finished, sameAfter⟩ := visits_simulate summarizer all described all 0
    ⟨verdicts, queue, []⟩ plain List.drop_zero covered same
  refine ⟨?_, sameAfter⟩
  intro index candidate found
  have inside := (List.getElem?_eq_some_iff.mp found).1
  rcases finished index candidate found with ⟨behind, _⟩ | ⟨_, waiting⟩ | settled
  · omega
  · exact .inl waiting
  · exact .inr settled

omit described in
theorem fullSweep_of_settled (verdicts : Verdicts)
    (settled : ∀ candidate ∈ all, summarizer.Settled verdicts candidate) :
    SameVerdicts (summarizer.fullSweep all verdicts) verdicts := by
  induction all with
  | nil => exact .refl verdicts
  | cons candidate later ih =>
    have first := (settled candidate List.mem_cons_self).revisit_same
    have rest := ih fun other member => settled other (List.mem_cons_of_mem candidate member)
    exact (first.fullSweep summarizer later).trans rest

omit described in
theorem fullSweeps_of_settled (count : Nat) (verdicts : Verdicts)
    (settled : ∀ candidate ∈ all, summarizer.Settled verdicts candidate) :
    SameVerdicts (summarizer.fullSweeps all count verdicts) verdicts := by
  induction count generalizing verdicts with
  | zero => exact .refl verdicts
  | succ count ih =>
    have once := summarizer.fullSweep_of_settled all verdicts settled
    have after := ih (summarizer.fullSweep all verdicts)
      fun candidate member => (settled candidate member).of_same once.symm
    exact after.trans once

omit described in
theorem settled_of_ready_nil (verdicts : Verdicts) (ready : summarizer.Ready all [] verdicts) :
    ∀ candidate ∈ all, summarizer.Settled verdicts candidate := by
  intro candidate member
  obtain ⟨index, found⟩ := List.mem_iff_getElem?.mp member
  rcases ready index candidate found with queued | settled
  · cases queued
  · exact settled

/-- Passes that end early end where further sweeps would change nothing. -/
theorem passes_simulate (bound : Nat) (verdicts plain : Verdicts) (queue : List Nat)
    (ready : summarizer.Ready all queue verdicts) (same : SameVerdicts verdicts plain) :
    SameVerdicts (summarizer.passes all bound verdicts queue).2
      (summarizer.fullSweeps all bound plain) := by
  induction bound generalizing verdicts plain queue with
  | zero => exact same
  | succ bound ih =>
    cases queue with
    | nil =>
      have settled := summarizer.settled_of_ready_nil all verdicts ready
      have unchanged := summarizer.fullSweeps_of_settled all (bound + 1) plain
        fun candidate member => (settled candidate member).of_same same
      exact same.trans unchanged.symm
    | cons first others =>
      obtain ⟨readyAfter, sameAfter⟩ :=
        sweep_simulates summarizer all described verdicts plain (first :: others) ready same
      exact ih _ _ _ readyAfter sameAfter

end Pass

/-! ### Whole packages -/

variable (summarizer)

theorem ready_initially (all : List Candidate) :
    summarizer.Ready all (List.range all.length) [] := by
  intro index candidate found
  exact .inl (List.mem_range.mpr (List.getElem?_eq_some_iff.mp found).1)

def finalVerdicts : Verdicts :=
  (summarizer.passes summarizer.candidates summarizer.settings.maxSummaryPasses []
    (List.range summarizer.candidates.length)).2

def verdict (candidate : Candidate) : Bool :=
  isDisposer summarizer.finalVerdicts candidate.symbol

theorem verdicts_facts :
    summarizer.verdicts.1 =
      summarizer.candidates.map fun candidate => (candidate.key, summarizer.verdict candidate) :=
  rfl

theorem run_eq :
    summarizer.run =
      ((writeAll summarizer.facts summarizer.verdicts.1).1,
       (writeAll summarizer.facts summarizer.verdicts.1).2.map fun _ =>
        ⟨summarizer.verdicts.1, summarizer.allCandidates.length - summarizer.candidates.length,
         summarizer.verdicts.2⟩) :=
  rfl

theorem finalVerdicts_same :
    SameVerdicts summarizer.finalVerdicts
      (summarizer.fullSweeps summarizer.candidates summarizer.settings.maxSummaryPasses []) :=
  passes_simulate summarizer summarizer.candidates summarizer.describes_of_mem
    summarizer.settings.maxSummaryPasses [] []
    (List.range summarizer.candidates.length)
    (summarizer.ready_initially summarizer.candidates) (.refl [])

/-- The facts about the candidates after as many full sweeps as passes are
allowed. -/
def sweptFacts : List (FuncKey × Bool) :=
  let final :=
    summarizer.fullSweeps summarizer.candidates summarizer.settings.maxSummaryPasses []
  summarizer.candidates.map fun candidate => (candidate.key, isDisposer final candidate.symbol)

theorem verdicts_eq_sweptFacts : summarizer.verdicts.1 = summarizer.sweptFacts := by
  rw [verdicts_facts]
  unfold sweptFacts verdict
  apply List.map_congr_left
  intro candidate _
  rw [summarizer.finalVerdicts_same.isDisposer_eq]

/-- For every package, every store and every bound, what is written and reported
is what full sweeps over all candidates give: no visit left out by the queue
would have changed a fact. -/
theorem run_eq_full_sweeps (summarizer : Summarizer) :
    summarizer.verdicts.1 = summarizer.sweptFacts ∧
      summarizer.run.1 = (writeAll summarizer.facts summarizer.sweptFacts).1 ∧
      summarizer.run.2.map SummaryReport.facts =
        (writeAll summarizer.facts summarizer.sweptFacts).2.map fun _ => summarizer.sweptFacts := by
  rw [run_eq, ← verdicts_eq_sweptFacts]
  refine ⟨rfl, rfl, ?_⟩
  cases (writeAll summarizer.facts summarizer.verdicts.1).2 with
  | error error => rfl
  | ok done => rfl

end Unclosed.Summarizer
