import Mathlib.Order.FixedPoints
import Mathlib.Order.CompletePartialOrder
import Unclosed.Proofs.DeclarationOrder
import Unclosed.Proofs.SummaryPasses

/-!
The disposers of a package as a least fixed point.  A pass that is followed by
another one finds a new disposer, so there is at most one pass more than there
are candidates.  Without earlier facts about the candidates, what the passes
find lies in the least set of functions that contains each candidate closing
its parameters by means of the set, and enough passes find that set.
-/

namespace Unclosed.Summarizer

variable (summarizer : Summarizer)

/-! ### The number of passes -/

def disposerCount (all : List Candidate) (verdicts : Verdicts) : Nat :=
  all.countP fun candidate => isDisposer verdicts candidate.symbol

theorem disposerCount_le_length (all : List Candidate) (verdicts : Verdicts) :
    disposerCount all verdicts ≤ all.length :=
  List.countP_le_length

theorem disposerCount_lt (all : List Candidate) (before after : Verdicts)
    (grown : ∀ symbol, isDisposer before symbol = true → isDisposer after symbol = true)
    (candidate : Candidate) (member : candidate ∈ all)
    (old : isDisposer before candidate.symbol = false)
    (new : isDisposer after candidate.symbol = true) :
    disposerCount all before < disposerCount all after := by
  obtain ⟨front, back, split⟩ := List.append_of_mem member
  have fewerFront : disposerCount front before ≤ disposerCount front after :=
    List.countP_mono_left fun other _ => grown other.symbol
  have fewerBack : disposerCount back before ≤ disposerCount back after :=
    List.countP_mono_left fun other _ => grown other.symbol
  unfold disposerCount at *
  rw [split, List.countP_append, List.countP_append, List.countP_cons, List.countP_cons,
    if_pos new, old, if_neg Bool.false_ne_true]
  omega

section Passes

variable (all : List Candidate)

/-- What a sweep has done so far: disposers stay disposers, and a candidate
queued for the next pass is there because of a new one. -/
structure Progress (all : List Candidate) (start : Verdicts) (state : PassState) : Prop where
  grown : ∀ symbol, isDisposer start symbol = true → isDisposer state.verdicts symbol = true
  counted : state.next ≠ [] → disposerCount all start < disposerCount all state.verdicts

theorem visit_progress (start : Verdicts) (state : PassState) (candidate : Candidate) (index : Nat)
    (member : candidate ∈ all) (progress : Progress all start state) :
    Progress all start (summarizer.visit all state (candidate, index)) := by
  have grown : ∀ symbol, isDisposer start symbol = true →
      isDisposer (summarizer.revisit state.verdicts candidate) symbol = true :=
    fun symbol old => summarizer.isDisposer_revisit state.verdicts candidate symbol
      (progress.grown symbol old)
  rcases summarizer.visit_cases all state candidate index with
    ⟨_, step⟩ | ⟨_, _, step⟩ | ⟨_, negative, positive, step⟩
  · rw [step]
    exact progress
  · rw [step]
    refine ⟨grown, fun waiting => Nat.lt_of_lt_of_le (progress.counted waiting) ?_⟩
    exact List.countP_mono_left fun other _ =>
      summarizer.isDisposer_revisit state.verdicts candidate other.symbol
  · rw [step]
    have old : isDisposer start candidate.symbol = false := by
      apply Bool.eq_false_iff.mpr
      intro before
      rw [progress.grown candidate.symbol before] at negative
      cases negative
    have new : isDisposer (summarizer.revisit state.verdicts candidate) candidate.symbol =
        true := by
      rw [isDisposer_eq_true_iff, lookup_revisit, if_pos rfl, positive]
    exact ⟨grown, fun _ => disposerCount_lt all start _ grown candidate member old new⟩

theorem visits_progress (start : Verdicts) (entries : List (Candidate × Nat)) (state : PassState)
    (among : ∀ entry ∈ entries, entry.1 ∈ all) (progress : Progress all start state) :
    Progress all start (entries.foldl (summarizer.visit all) state) := by
  induction entries generalizing state with
  | nil => exact progress
  | cons entry later ih =>
    exact ih _ (fun other member => among other (List.mem_cons_of_mem entry member))
      (summarizer.visit_progress all start state entry.1 entry.2
        (among entry List.mem_cons_self) progress)

theorem sweep_progress (verdicts : Verdicts) (queue : List Nat) :
    Progress all verdicts (summarizer.sweep all verdicts queue) := by
  apply summarizer.visits_progress all verdicts
  · intro entry member
    exact List.fst_mem_of_mem_zipIdx member
  · exact ⟨fun _ old => old, fun waiting => absurd rfl waiting⟩

def laterPasses (bound : Nat) (state : PassState) : Nat × Verdicts :=
  summarizer.passes all bound state.verdicts state.next

theorem passes_cons (bound : Nat) (verdicts : Verdicts) (first : Nat) (others : List Nat) :
    summarizer.passes all (bound + 1) verdicts (first :: others) =
      ((summarizer.laterPasses all bound (summarizer.sweep all verdicts (first :: others))).1 + 1,
       (summarizer.laterPasses all bound (summarizer.sweep all verdicts (first :: others))).2) :=
  rfl

theorem passes_nil (bound : Nat) (verdicts : Verdicts) :
    summarizer.passes all bound verdicts [] = (0, verdicts) := by
  cases bound with
  | zero => rfl
  | succ bound => rfl

theorem passes_count_le_bound (bound : Nat) (verdicts : Verdicts) (queue : List Nat) :
    (summarizer.passes all bound verdicts queue).1 ≤ bound := by
  induction bound generalizing verdicts queue with
  | zero => exact Nat.le_refl 0
  | succ bound ih =>
    cases queue with
    | nil => exact Nat.zero_le _
    | cons first others =>
      rw [passes_cons]
      exact Nat.succ_le_succ (ih _ _)

/-- Every pass but the last adds a disposer to those there are. -/
theorem passes_count_le_length (bound : Nat) (verdicts : Verdicts) (queue : List Nat) :
    (summarizer.passes all bound verdicts queue).1 + disposerCount all verdicts ≤
      all.length + 1 := by
  induction bound generalizing verdicts queue with
  | zero =>
    have counted := disposerCount_le_length all verdicts
    change 0 + _ ≤ _
    omega
  | succ bound ih =>
    have counted := disposerCount_le_length all verdicts
    cases queue with
    | nil =>
      rw [passes_nil]
      omega
    | cons first others =>
      rw [passes_cons]
      have progress := summarizer.sweep_progress all verdicts (first :: others)
      generalize summarizer.sweep all verdicts (first :: others) = state at progress ⊢
      cases waiting : state.next with
      | nil =>
        rw [laterPasses, waiting, passes_nil]
        omega
      | cons second rest =>
        have more := progress.counted (by rw [waiting]; exact List.cons_ne_nil second rest)
        have later := ih state.verdicts (second :: rest)
        rw [laterPasses, waiting]
        omega

/-- With a bound beyond the missing disposers the passes end with all
candidates settled. -/
theorem passes_settled (described : ∀ candidate ∈ all, summarizer.Describes candidate) (bound : Nat)
    (verdicts : Verdicts) (queue : List Nat) (ready : summarizer.Ready all queue verdicts)
    (enough : all.length + 1 ≤ bound + disposerCount all verdicts) :
    ∀ candidate ∈ all,
      summarizer.Settled (summarizer.passes all bound verdicts queue).2 candidate := by
  induction bound generalizing verdicts queue with
  | zero =>
    have counted := disposerCount_le_length all verdicts
    omega
  | succ bound ih =>
    cases queue with
    | nil => exact summarizer.settled_of_ready_nil all verdicts ready
    | cons first others =>
      rw [passes_cons]
      have progress := summarizer.sweep_progress all verdicts (first :: others)
      have readyAfter := (sweep_simulates summarizer all described verdicts verdicts
        (first :: others) ready (.refl verdicts)).1
      generalize summarizer.sweep all verdicts (first :: others) = state at progress readyAfter ⊢
      cases waiting : state.next with
      | nil =>
        rw [waiting] at readyAfter
        rw [laterPasses, waiting, passes_nil]
        exact summarizer.settled_of_ready_nil all state.verdicts readyAfter
      | cons second rest =>
        have more := progress.counted (by rw [waiting]; exact List.cons_ne_nil second rest)
        rw [waiting] at readyAfter
        rw [laterPasses, waiting]
        exact ih state.verdicts (second :: rest) readyAfter (by omega)

end Passes

/-! ### The least set -/

def candidateSymbols : List SymbolId :=
  summarizer.candidates.map Candidate.symbol

theorem mem_candidateSymbols (candidate : Candidate) (member : candidate ∈ summarizer.candidates) :
    candidate.symbol ∈ summarizer.candidateSymbols :=
  List.mem_map_of_mem member

open Classical in
/-- The functions known to close what they are given if the members of a set are
those among the candidates; about other functions the store decides. -/
noncomputable def knownGiven (members : Set SymbolId) (symbol : SymbolId) : Bool :=
  if symbol ∈ summarizer.candidateSymbols then decide (symbol ∈ members)
  else summarizer.isKnown [] symbol

theorem knownGiven_candidate (members : Set SymbolId) (symbol : SymbolId)
    (candidate : symbol ∈ summarizer.candidateSymbols) :
    summarizer.knownGiven members symbol = true ↔ symbol ∈ members := by
  simp only [knownGiven, candidate, if_true, decide_eq_true_iff]

theorem knownGiven_other (members : Set SymbolId) (symbol : SymbolId)
    (other : symbol ∉ summarizer.candidateSymbols) :
    summarizer.knownGiven members symbol = summarizer.isKnown [] symbol := by
  unfold knownGiven
  rw [if_neg other]

theorem knownGiven_mono {fewer more : Set SymbolId} (included : fewer ≤ more) (symbol : SymbolId)
    (known : summarizer.knownGiven fewer symbol = true) :
    summarizer.knownGiven more symbol = true := by
  by_cases candidate : symbol ∈ summarizer.candidateSymbols
  · rw [knownGiven_candidate _ _ _ candidate] at known ⊢
    exact included known
  · rw [knownGiven_other _ _ _ candidate] at known ⊢
    exact known

/-- The candidates that close their parameters by means of a set. -/
noncomputable def disposalStep : Set SymbolId →o Set SymbolId where
  toFun members := { symbol | ∃ candidate ∈ summarizer.candidates, candidate.symbol = symbol ∧
    summarizer.closesParams (summarizer.knownGiven members) candidate = true }
  monotone' := by
    intro fewer more included symbol
    rintro ⟨candidate, member, same, closes⟩
    refine ⟨candidate, member, same, ?_⟩
    exact summarizer.closesParams_of_known candidate
      (summarizer.describes_of_mem candidate member) _ _
      (fun called _ => summarizer.knownGiven_mono included called) closes

/-- The least set that contains every candidate closing its parameters by means
of it. -/
noncomputable def leastDisposers : Set SymbolId :=
  OrderHom.lfp summarizer.disposalStep

theorem mem_leastDisposers_of_closes (candidate : Candidate)
    (member : candidate ∈ summarizer.candidates)
    (closes : summarizer.closesParams (summarizer.knownGiven summarizer.leastDisposers) candidate =
      true) :
    candidate.symbol ∈ summarizer.leastDisposers := by
  have step : candidate.symbol ∈ summarizer.disposalStep summarizer.leastDisposers :=
    ⟨candidate, member, rfl, closes⟩
  unfold leastDisposers at step ⊢
  rw [OrderHom.map_lfp] at step
  exact step

/-! ### Every disposer found is in the least set -/

/-- Verdicts on candidates only, the positive ones on members of the least set. -/
structure Justified (summarizer : Summarizer) (verdicts : Verdicts) : Prop where
  positive : ∀ symbol, isDisposer verdicts symbol = true → symbol ∈ summarizer.leastDisposers
  domain : ∀ symbol, symbol ∉ summarizer.candidateSymbols → verdicts.lookup symbol = none

section Fresh

variable (fresh : ∀ candidate ∈ summarizer.candidates,
  summarizer.facts.fallback.get? candidate.key.text = none)
include fresh

/-- Without a fallback fact nothing is known about a candidate before its first
visit. -/
theorem isKnown_candidate (symbol : SymbolId) (member : symbol ∈ summarizer.candidateSymbols) :
    summarizer.isKnown [] symbol = false := by
  obtain ⟨candidate, found, same⟩ := List.mem_map.mp member
  have unwritten := ((summarizer.mem_candidates candidate).mp found).2
  have keyed := (summarizer.describes_of_mem candidate found).key
  have absent : summarizer.facts.written.get? candidate.key.text = none := by
    unfold FactStore.contains OrderedMap.contains at unwritten
    exact Option.isSome_eq_false_iff.mp unwritten |> Option.isNone_iff_eq_none.mp
  rw [same] at keyed
  simp only [isKnown, List.lookup_nil, keyed, FactStore.isDisposer, FactStore.fact?, absent,
    fresh candidate found, Option.getD_none]

omit fresh in
theorem isKnown_eq_nil_of_lookup_none (verdicts : Verdicts) (symbol : SymbolId)
    (missing : verdicts.lookup symbol = none) :
    summarizer.isKnown verdicts symbol = summarizer.isKnown [] symbol := by
  simp only [isKnown, missing, List.lookup_nil]

theorem knownGiven_of_isKnown (verdicts : Verdicts) (justified : summarizer.Justified verdicts)
    (symbol : SymbolId) (known : summarizer.isKnown verdicts symbol = true) :
    summarizer.knownGiven summarizer.leastDisposers symbol = true := by
  by_cases candidate : symbol ∈ summarizer.candidateSymbols
  · rw [knownGiven_candidate _ _ _ candidate]
    apply justified.positive
    cases latest : verdicts.lookup symbol with
    | none =>
      rw [isKnown_eq_nil_of_lookup_none _ _ _ latest,
        summarizer.isKnown_candidate fresh symbol candidate] at known
      cases known
    | some verdict =>
      simp only [isKnown, latest] at known
      rw [isDisposer_eq_true_iff, latest, known]
  · rw [knownGiven_other _ _ _ candidate]
    rw [isKnown_eq_nil_of_lookup_none _ _ _ (justified.domain symbol candidate)] at known
    exact known

theorem revisit_justified (verdicts : Verdicts) (justified : summarizer.Justified verdicts)
    (candidate : Candidate) (member : candidate ∈ summarizer.candidates) :
    summarizer.Justified (summarizer.revisit verdicts candidate) := by
  constructor
  · intro symbol positive
    rw [isDisposer_eq_true_iff, lookup_revisit] at positive
    by_cases same : symbol = candidate.symbol
    · rw [if_pos same, Option.some.injEq, judged, Bool.or_eq_true] at positive
      rw [same]
      rcases positive with before | closes
      · exact justified.positive candidate.symbol before
      · apply summarizer.mem_leastDisposers_of_closes candidate member
        exact summarizer.closesParams_of_known candidate
          (summarizer.describes_of_mem candidate member) _ _
          (fun called _ => summarizer.knownGiven_of_isKnown fresh verdicts justified called) closes
    · rw [if_neg same, ← isDisposer_eq_true_iff] at positive
      exact justified.positive symbol positive
  · intro symbol outside
    have different : symbol ≠ candidate.symbol := by
      intro same
      exact outside (same ▸ summarizer.mem_candidateSymbols candidate member)
    rw [lookup_revisit, if_neg different]
    exact justified.domain symbol outside

theorem fullSweep_justified (visited : List Candidate)
    (among : ∀ candidate ∈ visited, candidate ∈ summarizer.candidates) (verdicts : Verdicts)
    (justified : summarizer.Justified verdicts) :
    summarizer.Justified (summarizer.fullSweep visited verdicts) := by
  induction visited generalizing verdicts with
  | nil => exact justified
  | cons candidate later ih =>
    exact ih (fun other member => among other (List.mem_cons_of_mem candidate member)) _
      (summarizer.revisit_justified fresh verdicts justified candidate
        (among candidate List.mem_cons_self))

theorem fullSweeps_justified (count : Nat) (verdicts : Verdicts)
    (justified : summarizer.Justified verdicts) :
    summarizer.Justified (summarizer.fullSweeps summarizer.candidates count verdicts) := by
  induction count generalizing verdicts with
  | zero => exact justified
  | succ count ih =>
    exact ih _ (summarizer.fullSweep_justified fresh summarizer.candidates
      (fun _ member => member) verdicts justified)

theorem finalVerdicts_justified : summarizer.Justified summarizer.finalVerdicts := by
  have initially : summarizer.Justified [] :=
    ⟨fun _ impossible => (Bool.false_ne_true impossible).elim, fun _ _ => rfl⟩
  have swept := summarizer.fullSweeps_justified fresh summarizer.settings.maxSummaryPasses []
    initially
  have same := summarizer.finalVerdicts_same
  constructor
  · intro symbol positive
    rw [same.isDisposer_eq] at positive
    exact swept.positive symbol positive
  · intro symbol outside
    rw [same symbol]
    exact swept.domain symbol outside

end Fresh

/-! ### Enough passes find the least set -/

theorem finalVerdicts_settled
    (enough : summarizer.candidates.length + 1 ≤ summarizer.settings.maxSummaryPasses) :
    ∀ candidate ∈ summarizer.candidates,
      summarizer.Settled summarizer.finalVerdicts candidate :=
  summarizer.passes_settled summarizer.candidates summarizer.describes_of_mem _ []
    (List.range summarizer.candidates.length)
    (summarizer.ready_initially summarizer.candidates) (by omega)

/-- Settled verdicts are closed under the step that the least set is closed
under. -/
theorem leastDisposers_le_of_settled (verdicts : Verdicts)
    (domain : ∀ symbol, symbol ∉ summarizer.candidateSymbols → verdicts.lookup symbol = none)
    (settled : ∀ candidate ∈ summarizer.candidates, summarizer.Settled verdicts candidate) :
    summarizer.leastDisposers ≤ { symbol | isDisposer verdicts symbol = true } := by
  apply OrderHom.lfp_le
  rintro _ ⟨candidate, member, rfl, closes⟩
  have known : ∀ symbol,
      summarizer.knownGiven { symbol | isDisposer verdicts symbol = true } symbol = true →
        summarizer.isKnown verdicts symbol = true := by
    intro symbol given
    by_cases inside : symbol ∈ summarizer.candidateSymbols
    · have latest := (isDisposer_eq_true_iff verdicts symbol).mp
        ((summarizer.knownGiven_candidate _ symbol inside).mp given)
      simp only [isKnown, latest]
    · rw [knownGiven_other _ _ _ inside] at given
      rw [isKnown_eq_nil_of_lookup_none _ _ _ (domain symbol inside)]
      exact given
  have found := summarizer.closesParams_of_known candidate
    (summarizer.describes_of_mem candidate member) _ _ (fun symbol _ => known symbol) closes
  have latest := settled candidate member
  simp only [Settled, judged, found, Bool.or_true] at latest
  exact (isDisposer_eq_true_iff verdicts candidate.symbol).mpr latest

theorem passes_le :
    summarizer.verdicts.2 ≤
      min summarizer.settings.maxSummaryPasses (summarizer.candidates.length + 1) := by
  have bounded := summarizer.passes_count_le_bound summarizer.candidates
    summarizer.settings.maxSummaryPasses [] (List.range summarizer.candidates.length)
  have counted := summarizer.passes_count_le_length summarizer.candidates
    summarizer.settings.maxSummaryPasses [] (List.range summarizer.candidates.length)
  apply Nat.le_min.mpr
  exact ⟨bounded, Nat.le_trans (Nat.le_add_right _ _) counted⟩

/-! ### Recursion and order -/

/-- Functions that close their parameters only if some of themselves do are not
in the least set. -/
theorem not_mem_leastDisposers_of_ungrounded (group : List SymbolId)
    (inside : ∀ symbol ∈ group, symbol ∈ summarizer.candidateSymbols)
    (ungrounded : ∀ candidate ∈ summarizer.candidates, candidate.symbol ∈ group →
      summarizer.closesParams (fun symbol => !group.contains symbol) candidate = false)
    (symbol : SymbolId) (member : symbol ∈ group) : symbol ∉ summarizer.leastDisposers := by
  have outside : summarizer.leastDisposers ≤ { symbol | symbol ∉ group } := by
    apply OrderHom.lfp_le
    rintro _ ⟨candidate, found, rfl, closes⟩ grouped
    have known : ∀ symbol, summarizer.knownGiven { symbol | symbol ∉ group } symbol = true →
        (!group.contains symbol) = true := by
      intro symbol given
      rw [Bool.not_eq_true', List.contains_eq_mem, decide_eq_false_iff_not]
      intro present
      exact (summarizer.knownGiven_candidate _ symbol (inside symbol present)).mp given present
    have impossible := summarizer.closesParams_of_known candidate
      (summarizer.describes_of_mem candidate found) _ _ (fun symbol _ => known symbol) closes
    rw [ungrounded candidate found grouped] at impossible
    cases impossible
  exact fun least => outside least member

theorem leastDisposers_onPackage (package : Package)
    (records : package.info = summarizer.package.info)
    (order : package.declarations.Perm summarizer.package.declarations) :
    (summarizer.onPackage package).leastDisposers = summarizer.leastDisposers := by
  have candidates := candidates_perm_of_declarations summarizer package records order
  have known : (summarizer.onPackage package).knownGiven = summarizer.knownGiven := by
    funext members symbol
    have symbols : symbol ∈ (summarizer.onPackage package).candidateSymbols ↔
        symbol ∈ summarizer.candidateSymbols :=
      (candidates.map Candidate.symbol).mem_iff
    unfold knownGiven
    simp only [symbols]
    rfl
  have step : (summarizer.onPackage package).disposalStep = summarizer.disposalStep := by
    ext members symbol
    change (∃ candidate ∈ _, _ ∧ _) ↔ ∃ candidate ∈ _, _ ∧ _
    simp only [candidates.mem_iff, known, closesParams_onPackage summarizer package records]
  unfold leastDisposers
  rw [step]

/-! ### Whole packages -/

def writtenDisposers : Set SymbolId :=
  { symbol | ∃ candidate ∈ summarizer.candidates, candidate.symbol = symbol ∧
    summarizer.verdict candidate = true }

theorem leastDisposers_le_candidates :
    summarizer.leastDisposers ≤ { symbol | symbol ∈ summarizer.candidateSymbols } := by
  apply OrderHom.lfp_le
  rintro _ ⟨candidate, member, rfl, _⟩
  exact summarizer.mem_candidateSymbols candidate member

section Fresh

variable (fresh : ∀ candidate ∈ summarizer.candidates,
  summarizer.facts.fallback.get? candidate.key.text = none)
include fresh

theorem verdict_sound (candidate : Candidate) (positive : summarizer.verdict candidate = true) :
    candidate.symbol ∈ summarizer.leastDisposers :=
  (summarizer.finalVerdicts_justified fresh).positive candidate.symbol positive

variable (enough : summarizer.candidates.length + 1 ≤ summarizer.settings.maxSummaryPasses)
include enough

theorem verdict_exact (candidate : Candidate) :
    summarizer.verdict candidate = true ↔ candidate.symbol ∈ summarizer.leastDisposers := by
  constructor
  · exact summarizer.verdict_sound fresh candidate
  · intro member
    exact summarizer.leastDisposers_le_of_settled summarizer.finalVerdicts
      (summarizer.finalVerdicts_justified fresh).domain (summarizer.finalVerdicts_settled enough)
      member

theorem verdicts_onPackage_perm (package : Package)
    (records : package.info = summarizer.package.info)
    (order : package.declarations.Perm summarizer.package.declarations) :
    (summarizer.onPackage package).verdicts.1.Perm summarizer.verdicts.1 := by
  have candidates := candidates_perm_of_declarations summarizer package records order
  have freshToo : ∀ candidate ∈ (summarizer.onPackage package).candidates,
      summarizer.facts.fallback.get? candidate.key.text = none :=
    fun candidate member => fresh candidate (candidates.mem_iff.mp member)
  have enoughToo : (summarizer.onPackage package).candidates.length + 1 ≤
      summarizer.settings.maxSummaryPasses := by
    rw [candidates.length_eq]
    exact enough
  have same : (summarizer.onPackage package).verdict = summarizer.verdict := by
    funext candidate
    apply Bool.eq_iff_iff.mpr
    rw [summarizer.verdict_exact fresh enough,
      (summarizer.onPackage package).verdict_exact freshToo enoughToo,
      leastDisposers_onPackage summarizer package records order]
  rw [verdicts_facts, verdicts_facts, same]
  exact candidates.map _

theorem writtenDisposers_eq : summarizer.writtenDisposers = summarizer.leastDisposers := by
  apply Set.Subset.antisymm
  · rintro _ ⟨candidate, _, rfl, positive⟩
    exact summarizer.verdict_sound fresh candidate positive
  · intro symbol least
    obtain ⟨candidate, member, same⟩ :=
      List.mem_map.mp (summarizer.leastDisposers_le_candidates least)
    refine ⟨candidate, member, same, ?_⟩
    rw [summarizer.verdict_exact fresh enough, same]
    exact least

end Fresh

/-- If no fallback fact is about a candidate, then under every bound the written
disposers belong to the least set, a bound beyond the number of candidates finds
all of it, and no more passes than that are made.  So functions that only hand
their parameters around among themselves are no disposers, and with enough
passes the order of the declarations does not matter. -/
theorem writtenDisposers_least (summarizer : Summarizer)
    (fresh : ∀ candidate ∈ summarizer.candidates,
      summarizer.facts.fallback.get? candidate.key.text = none) :
    summarizer.verdicts.1 = (summarizer.candidates.map fun candidate =>
        (candidate.key, summarizer.verdict candidate)) ∧
      summarizer.writtenDisposers ⊆ summarizer.leastDisposers ∧
      (summarizer.candidates.length + 1 ≤ summarizer.settings.maxSummaryPasses →
        summarizer.writtenDisposers = summarizer.leastDisposers) ∧
      summarizer.verdicts.2 ≤
        min summarizer.settings.maxSummaryPasses (summarizer.candidates.length + 1) ∧
      (∀ group : List SymbolId,
        (∀ symbol ∈ group, symbol ∈ summarizer.candidateSymbols) →
        (∀ candidate ∈ summarizer.candidates, candidate.symbol ∈ group →
          summarizer.closesParams (fun symbol => !group.contains symbol) candidate = false) →
        ∀ candidate ∈ summarizer.candidates, candidate.symbol ∈ group →
          summarizer.verdict candidate = false) ∧
      (summarizer.candidates.length + 1 ≤ summarizer.settings.maxSummaryPasses →
        ∀ package : Package, package.info = summarizer.package.info →
          package.declarations.Perm summarizer.package.declarations →
          (summarizer.onPackage package).verdicts.1.Perm summarizer.verdicts.1) := by
  refine ⟨summarizer.verdicts_facts, ?_, summarizer.writtenDisposers_eq fresh,
    summarizer.passes_le, ?_, ?_⟩
  · rintro _ ⟨candidate, _, rfl, positive⟩
    exact summarizer.verdict_sound fresh candidate positive
  · intro group inside ungrounded candidate _ grouped
    apply Bool.eq_false_iff.mpr
    intro positive
    exact summarizer.not_mem_leastDisposers_of_ungrounded group inside ungrounded
      candidate.symbol grouped (summarizer.verdict_sound fresh candidate positive)
  · intro enough package records order
    exact summarizer.verdicts_onPackage_perm fresh enough package records order

def sampleFunction (name : String) (place : Nat) (callee : Expr) (arguments : List Expr) :
    FuncDecl where
  receiver := none
  name := ⟨name, ⟨place, place⟩⟩
  signature := .mk [.mk [⟨"c", ⟨place + 1, place + 1⟩⟩]
    (.name ⟨place + 2, place + 2⟩ ⟨"Closer", ⟨place + 2, place + 2⟩⟩) none
    ⟨place + 1, place + 2⟩] [] ⟨place + 1, place + 2⟩
  body := some (.mk [.expr ⟨place + 3, place + 4⟩
    (.call ⟨place + 3, place + 4⟩ callee arguments false)] ⟨place + 3, place + 4⟩)
  span := ⟨place, place + 4⟩

def sampleRelay (name : String) (place : Nat) (callee : String) : FuncDecl :=
  sampleFunction name place (.ident ⟨callee, ⟨place + 3, place + 3⟩⟩)
    [.ident ⟨"c", ⟨place + 4, place + 4⟩⟩]

def sampleRelease (name : String) (place : Nat) : FuncDecl :=
  sampleFunction name place
    (.selector ⟨place + 3, place + 4⟩ (.ident ⟨"c", ⟨place + 4, place + 4⟩⟩)
      ⟨"Close", ⟨place + 3, place + 3⟩⟩) []

def sampleSite (place : Nat) : Site := ⟨⟨0⟩, ⟨place, place⟩⟩

def samplePackage : Package where
  path := "app"
  name := "app"
  files := [⟨⟨0⟩, ⟨"app.go", ⟨"app", ⟨0, 0⟩⟩, [],
    [.func (sampleRelay "relay" 10 "release"), .func (sampleRelease "release" 20),
     .func (sampleRelay "ping" 30 "pong"), .func (sampleRelay "pong" 40 "ping")], ⟨0, 50⟩⟩⟩]
  names := []
  info := {
    types := .empty
    defs := ⟨[(sampleSite 10, ⟨0⟩), (sampleSite 20, ⟨1⟩), (sampleSite 30, ⟨2⟩),
      (sampleSite 40, ⟨3⟩), (sampleSite 11, ⟨4⟩), (sampleSite 21, ⟨5⟩), (sampleSite 31, ⟨6⟩),
      (sampleSite 41, ⟨7⟩)]⟩
    uses := ⟨[(sampleSite 13, ⟨1⟩), (sampleSite 33, ⟨3⟩), (sampleSite 43, ⟨2⟩),
      (sampleSite 14, ⟨4⟩), (sampleSite 24, ⟨5⟩), (sampleSite 34, ⟨6⟩), (sampleSite 44, ⟨7⟩)]⟩
    selections := ⟨[(⟨⟨0⟩, ⟨23, 24⟩⟩, .interfaceMethod "Close" ⟨2⟩)]⟩
    errors := [] }
  imports := []
  isStandard := false
  requested := true

def sampleSymbol (kind : SymbolKind) (name : String) (type : TypeId) (key : Option FuncKey) :
    Symbol :=
  ⟨kind, name, type, none, "app", true, key, none⟩

def sampleProgram : Program where
  sources := .empty
  types := ⟨#[.invalid, .interface ⟨[("Close", ⟨2⟩)], []⟩, .func ⟨[], [], false⟩,
    .func ⟨[⟨1⟩], [], false⟩], [], []⟩
  symbols := ⟨(["relay", "release", "ping", "pong"].map (fun name =>
      sampleSymbol .func name ⟨3⟩ (some (.function "app" name)))
    ++ List.replicate 4 (sampleSymbol .param "c" ⟨1⟩ none)).toArray⟩
  packages := [samplePackage]
  levels := [[0]]
  closer := ⟨1⟩

def sampleSummarizer : Summarizer :=
  ⟨sampleProgram, samplePackage, { maxSummaryPasses := 5 }, .empty⟩

/-- Four candidates and five passes: the two that close are found, in two of the
passes, and the two that wait for each other are not. -/
theorem sample_writtenDisposers_least :
    (∀ candidate ∈ sampleSummarizer.candidates,
        sampleSummarizer.facts.fallback.get? candidate.key.text = none) ∧
      sampleSummarizer.verdicts =
        ([(⟨"app.relay"⟩, true), (⟨"app.release"⟩, true), (⟨"app.ping"⟩, false),
          (⟨"app.pong"⟩, false)], 2) ∧
      sampleSummarizer.candidates.length + 1 ≤ 5 ∧
      sampleSummarizer.writtenDisposers = sampleSummarizer.leastDisposers := by
  have enough : sampleSummarizer.candidates.length + 1 ≤ 5 := by decide +kernel
  have least := (writtenDisposers_least sampleSummarizer fun _ _ => rfl).2.2.1 enough
  exact ⟨fun _ _ => rfl, by decide +kernel, enough, least⟩

end Unclosed.Summarizer
