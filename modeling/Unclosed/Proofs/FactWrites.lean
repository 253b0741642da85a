import Unclosed.Analysis.Summary
import Unclosed.Proofs.OrderedKeys

/-!
Writing facts.  A written fact stays, a fact is refused only when another one
stands under its key, and the facts of an earlier run have no part in it.
-/

namespace Unclosed

variable (store : FactStore) (facts : List (FuncKey × Bool))

namespace FactStore

theorem contains_eq_false_iff (key : FuncKey) :
    store.contains key = false ↔ store.written.get? key.text = none := by
  unfold contains OrderedMap.contains
  rw [Option.isSome_eq_false_iff, Option.isNone_iff_eq_none]

/-- What writing a fact can do: nothing, be refused, or add the fact. -/
theorem write_cases (key : FuncKey) (fact : Bool) :
    (store.written.get? key.text = some fact ∧ store.write key fact = .ok store) ∨
    (∃ existing, existing ≠ fact ∧ store.written.get? key.text = some existing ∧
      store.write key fact = .error (.conflict key existing fact)) ∨
    (store.written.get? key.text = none ∧
      store.write key fact = .ok ⟨store.written.insert key.text fact, store.fallback⟩) := by
  unfold write
  cases found : store.written.get? key.text with
  | none => exact .inr (.inr ⟨rfl, rfl⟩)
  | some existing =>
    by_cases same : existing = fact
    · exact .inl ⟨by rw [same], if_pos same⟩
    · exact .inr (.inl ⟨existing, same, rfl, if_neg same⟩)

/-- A later store of a run: what was written stays, and the fallback is the same. -/
structure Extends (earlier later : FactStore) : Prop where
  fallback : later.fallback = earlier.fallback
  written : ∀ text fact, earlier.written.get? text = some fact → later.written.get? text = some fact

namespace Extends

theorem refl : Extends store store := ⟨rfl, fun _ _ found => found⟩

theorem trans {first second third : FactStore} (left : Extends first second)
    (right : Extends second third) : Extends first third :=
  ⟨right.fallback.trans left.fallback,
   fun text fact found => right.written text fact (left.written text fact found)⟩

end Extends

theorem write_extends (after : FactStore) (key : FuncKey) (fact : Bool)
    (wrote : store.write key fact = .ok after) :
    Extends store after ∧ after.written.get? key.text = some fact := by
  rcases store.write_cases key fact with ⟨found, same⟩ | ⟨_, _, _, refused⟩ | ⟨free, added⟩
  · rw [same] at wrote
    cases wrote
    exact ⟨.refl store, found⟩
  · rw [refused] at wrote
    cases wrote
  · rw [added] at wrote
    cases wrote
    refine ⟨⟨rfl, ?_⟩, ?_⟩
    · intro text old found
      have apart : text ≠ key.text := by
        intro equal
        rw [equal, free] at found
        cases found
      rw [OrderedMap.get?_insert, if_neg apart]
      exact found
    · rw [OrderedMap.get?_insert, if_pos rfl]

theorem of_written_write (after : FactStore) (key other : FuncKey) (fact found : Bool)
    (wrote : store.write key fact = .ok after)
    (present : after.written.get? other.text = some found) :
    store.written.get? other.text = some found ∨ (other, found) = (key, fact) := by
  rcases store.write_cases key fact with ⟨_, same⟩ | ⟨_, _, _, refused⟩ | ⟨_, added⟩
  · rw [same] at wrote
    cases wrote
    exact .inl present
  · rw [refused] at wrote
    cases wrote
  · rw [added] at wrote
    cases wrote
    rw [OrderedMap.get?_insert] at present
    by_cases equal : other.text = key.text
    · rw [if_pos equal] at present
      cases present
      cases other
      cases key
      cases equal
      exact .inr rfl
    · rw [if_neg equal] at present
      exact .inl present

theorem write_withFallback (written fallback other : OrderedMap Bool) (key : FuncKey)
    (fact : Bool) :
    write ⟨written, other⟩ key fact =
      (write ⟨written, fallback⟩ key fact).map fun after => ⟨after.written, other⟩ := by
  unfold write
  dsimp only
  cases written.get? key.text with
  | none => rfl
  | some existing =>
    dsimp only
    by_cases same : existing = fact
    · rw [if_pos same, if_pos same]
      rfl
    · rw [if_neg same, if_neg same]
      rfl

end FactStore

namespace Summarizer

/-! ### Lists of facts -/

theorem writeAll_extends : FactStore.Extends store (writeAll store facts).1 := by
  induction facts generalizing store with
  | nil => exact .refl store
  | cons first later ih =>
    obtain ⟨key, fact⟩ := first
    unfold writeAll
    cases wrote : store.write key fact with
    | error error => exact .refl store
    | ok after => exact (store.write_extends after key fact wrote).1.trans (ih after)

theorem written_of_writeAll (accepted : (writeAll store facts).2 = .ok ()) :
    ∀ fact ∈ facts, (writeAll store facts).1.written.get? fact.1.text = some fact.2 := by
  induction facts generalizing store with
  | nil =>
    intro fact member
    contradiction
  | cons first later ih =>
    obtain ⟨key, fact⟩ := first
    unfold writeAll at accepted ⊢
    cases wrote : store.write key fact with
    | error error =>
      rw [wrote] at accepted
      cases accepted
    | ok after =>
      rw [wrote] at accepted
      intro other member
      rcases List.mem_cons.mp member with here | inLater
      · subst here
        have present := (store.write_extends after key fact wrote).2
        exact (writeAll_extends after later).written key.text fact present
      · exact ih after accepted other inLater

/-- A refused fact meets another fact under its key, from before or from the
same list. -/
theorem conflict_of_writeAll (error : FactError)
    (refused : (writeAll store facts).2 = .error error) :
    ∃ key existing fact, error = .conflict key existing fact ∧ existing ≠ fact ∧
      (key, fact) ∈ facts ∧
      (store.written.get? key.text = some existing ∨ (key, existing) ∈ facts) := by
  induction facts generalizing store with
  | nil => cases refused
  | cons first later ih =>
    obtain ⟨key, fact⟩ := first
    unfold writeAll at refused
    rcases store.write_cases key fact with
      ⟨_, same⟩ | ⟨existing, differs, found, conflict⟩ | ⟨_, added⟩
    · rw [same] at refused
      obtain ⟨other, existing, new, is, differs, member, source⟩ := ih store refused
      exact ⟨other, existing, new, is, differs, List.mem_cons_of_mem _ member,
        source.imp_right (List.mem_cons_of_mem _)⟩
    · rw [conflict] at refused
      cases refused
      exact ⟨key, existing, fact, rfl, differs, List.mem_cons_self, .inl found⟩
    · rw [added] at refused
      obtain ⟨other, existing, new, is, differs, member, source⟩ := ih _ refused
      refine ⟨other, existing, new, is, differs, List.mem_cons_of_mem _ member, ?_⟩
      -- The fact in the way may be the one that was just added.
      rcases source with found | inLater
      · rcases store.of_written_write _ key other fact existing added found with
          before | here
        · exact .inl before
        · exact .inr (here ▸ List.mem_cons_self)
      · exact .inr (List.mem_cons_of_mem _ inLater)

/-- Facts under free keys are all written exactly when no two of them differ
under one key. -/
theorem writeAll_ok_iff (free : ∀ fact ∈ facts, store.written.get? fact.1.text = none) :
    (writeAll store facts).2 = .ok () ↔
      ∀ first ∈ facts, ∀ second ∈ facts, first.1 = second.1 → first.2 = second.2 := by
  constructor
  · intro accepted first firstMember second secondMember sameKey
    have firstWritten := written_of_writeAll store facts accepted first firstMember
    have secondWritten := written_of_writeAll store facts accepted second secondMember
    rw [sameKey, secondWritten] at firstWritten
    exact (Option.some.inj firstWritten).symm
  · intro consistent
    cases outcome : (writeAll store facts).2 with
    | ok done => rfl
    | error error =>
      obtain ⟨key, existing, fact, _, differs, member, source⟩ :=
        conflict_of_writeAll store facts error outcome
      rcases source with found | other
      · rw [free (key, fact) member] at found
        cases found
      · exact absurd (consistent (key, existing) other (key, fact) member rfl) differs

theorem writeAll_withFallback (written fallback other : OrderedMap Bool)
    (facts : List (FuncKey × Bool)) :
    writeAll ⟨written, other⟩ facts =
      (⟨(writeAll ⟨written, fallback⟩ facts).1.written, other⟩,
       (writeAll ⟨written, fallback⟩ facts).2) := by
  induction facts generalizing written with
  | nil => rfl
  | cons first later ih =>
    obtain ⟨key, fact⟩ := first
    unfold writeAll
    rw [FactStore.write_withFallback written fallback other]
    cases wrote : FactStore.write ⟨written, fallback⟩ key fact with
    | error error => rfl
    | ok after =>
      have kept : after.fallback = fallback :=
        (FactStore.write_extends _ after key fact wrote).1.fallback
      subst kept
      exact ih after.written

end Summarizer
end Unclosed
