import Mathlib.Data.List.Forall2
import Mathlib.Data.String.Basic
import Unclosed.Proofs.FactWrites

/-!
Tasks that share a fact store.  A task asks the store and writes to it, one
operation at a time, and goes on by the answers.  Tasks of which none touches a
key that another one writes end alike however their operations are interleaved.
-/

namespace Unclosed

variable {key : FuncKey} {facts more : List (FuncKey × Bool)} {store final : FactStore}

/-! ### Added facts -/

theorem OrderedMap.insertEntry_comm {α : Type} {first second : String} (apart : first ≠ second)
    (value other : α) (entries : List (String × α)) :
    insertEntry first value (insertEntry second other entries) =
      insertEntry second other (insertEntry first value entries) := by
  induction entries with
  | nil | cons entry later ih => grind [insertEntry]

namespace FactStore

def put (store : FactStore) (key : FuncKey) (fact : Bool) : FactStore :=
  { store with written := store.written.insert key.text fact }

def putAll (store : FactStore) (facts : List (FuncKey × Bool)) : FactStore :=
  facts.foldl (fun store fact => store.put fact.1 fact.2) store

theorem put_comm {first second : FuncKey} (apart : first ≠ second) (store : FactStore)
    (fact other : Bool) :
    (store.put second other).put first fact = (store.put first fact).put second other := by
  have texts : first.text ≠ second.text := fun same =>
    apart (by cases first; cases second; cases same; rfl)
  unfold put OrderedMap.insert
  rw [OrderedMap.insertEntry_comm texts]

theorem putAll_put (other : ∀ added ∈ facts, added.1 ≠ key) (store : FactStore) (fact : Bool) :
    (store.putAll facts).put key fact = (store.put key fact).putAll facts := by
  induction facts generalizing store with
  | nil => rfl
  | cons added later ih =>
    rw [List.forall_mem_cons] at other
    calc ((store.put added.1 added.2).putAll later).put key fact
      _ = ((store.put added.1 added.2).put key fact).putAll later :=
          ih other.2 _
      _ = ((store.put key fact).put added.1 added.2).putAll later := by
          rw [put_comm other.1.symm]

theorem putAll_append (store : FactStore) (facts later : List (FuncKey × Bool)) :
    store.putAll (facts ++ later) = (store.putAll facts).putAll later :=
  List.foldl_append

/-- Two stores that answer alike about some keys. -/
structure Agrees (about : FuncKey → Prop) (store other : FactStore) : Prop where
  fallback : other.fallback = store.fallback
  written : ∀ key, about key → other.written.get? key.text = store.written.get? key.text

namespace Agrees

variable {about : FuncKey → Prop} {store other : FactStore}

theorem refl (store : FactStore) : Agrees about store store := ⟨rfl, fun _ _ => rfl⟩

theorem trans {third : FactStore} (first : Agrees about store other)
    (second : Agrees about other third) : Agrees about store third :=
  ⟨second.fallback.trans first.fallback,
   fun key is => (second.written key is).trans (first.written key is)⟩

section

variable (agrees : Agrees about store other)
include agrees

theorem contains (is : about key) : other.contains key = store.contains key := by
  unfold FactStore.contains OrderedMap.contains
  rw [agrees.written key is]

theorem isDisposer (is : about key) : other.isDisposer key = store.isDisposer key := by
  unfold FactStore.isDisposer fact?
  rw [agrees.written key is, agrees.fallback]

theorem put (key : FuncKey) (fact : Bool) :
    Agrees about (store.put key fact) (other.put key fact) where
  fallback := agrees.fallback
  written := by
    intro asked is
    unfold FactStore.put
    rw [OrderedMap.get?_insert, OrderedMap.get?_insert, agrees.written asked is]

end

theorem put_other (other : ¬about key) (store : FactStore) (fact : Bool) :
    Agrees about store (store.put key fact) where
  fallback := rfl
  written := by
    intro asked is
    unfold FactStore.put
    rw [OrderedMap.get?_insert, if_neg]
    intro same
    have equal : asked = key := by cases asked; cases key; cases same; rfl
    exact other (equal ▸ is)

theorem putAll_other (other : ∀ fact ∈ facts, ¬about fact.1) (store : FactStore) :
    Agrees about store (store.putAll facts) := by
  induction facts generalizing store with
  | nil => exact .refl store
  | cons fact later ih =>
    rw [List.forall_mem_cons] at other
    exact (put_other other.1 store fact.2).trans (ih other.2 _)

end Agrees

end FactStore

/-! ### Tasks -/

/-- A computation that uses a fact store one operation at a time. -/
inductive Task (α : Type) where
  | done (value : α)
  | contains (key : FuncKey) (next : Bool → Task α)
  | isDisposer (key : FuncKey) (next : Bool → Task α)
  | write (key : FuncKey) (fact : Bool) (next : Except FactError Unit → Task α)

namespace Task

variable {α β : Type}

protected def bind : Task α → (α → Task β) → Task β
  | done value, later => later value
  | contains key next, later => contains key fun answer => (next answer).bind later
  | isDisposer key next, later => isDisposer key fun answer => (next answer).bind later
  | write key fact next, later => write key fact fun outcome => (next outcome).bind later

instance : Monad Task where
  pure := done
  bind := Task.bind

def step (store : FactStore) : Task α → FactStore × Task α
  | done value => (store, done value)
  | contains key next => (store, next (store.contains key))
  | isDisposer key next => (store, next (store.isDisposer key))
  | write key fact next =>
    match store.write key fact with
    | .ok after => (after, next (.ok ()))
    | .error error => (store, next (.error error))

def value? : Task α → Option α
  | done value => some value
  | _ => none

/-- Left alone, a task touches only the given keys, adds the given facts and ends
with the given value.  A fact that is there already may be written again. -/
inductive Plays (touches : FuncKey → Prop) :
    FactStore → Task α → List (FuncKey × Bool) → α → Prop
  | done (store : FactStore) (value : α) : Plays touches store (done value) [] value
  | contains {store : FactStore} {key : FuncKey} {next : Bool → Task α}
      {facts : List (FuncKey × Bool)} {value : α} (touch : touches key)
      (later : Plays touches store (next (store.contains key)) facts value) :
      Plays touches store (contains key next) facts value
  | isDisposer {store : FactStore} {key : FuncKey} {next : Bool → Task α}
      {facts : List (FuncKey × Bool)} {value : α} (touch : touches key)
      (later : Plays touches store (next (store.isDisposer key)) facts value) :
      Plays touches store (isDisposer key next) facts value
  | write {store : FactStore} {key : FuncKey} {fact : Bool}
      {next : Except FactError Unit → Task α} {facts : List (FuncKey × Bool)} {value : α}
      (touch : touches key) (free : store.written.get? key.text = none)
      (later : Plays touches (store.put key fact) (next (.ok ())) facts value) :
      Plays touches store (write key fact next) ((key, fact) :: facts) value
  | rewrite {store : FactStore} {key : FuncKey} {fact : Bool}
      {next : Except FactError Unit → Task α} {facts : List (FuncKey × Bool)} {value : α}
      (touch : touches key) (there : store.written.get? key.text = some fact)
      (later : Plays touches store (next (.ok ())) facts value) :
      Plays touches store (write key fact next) facts value

namespace Plays

variable {touches : FuncKey → Prop} {store other : FactStore} {task : Task α}
  {facts : List (FuncKey × Bool)} {value : α}

theorem bind {next : α → Task β} {result : β} (first : Plays touches store task facts value)
    (second : Plays touches (store.putAll facts) (next value) more result) :
    Plays touches store (task >>= next) (facts ++ more) result := by
  induction first with
  | done store value => exact second
  | contains touch later ih => exact .contains touch (ih second)
  | isDisposer touch later ih =>
    exact .isDisposer touch (ih second)
  | write touch free later ih =>
    exact .write touch free (ih second)
  | rewrite touch there later ih =>
    exact .rewrite touch there (ih second)

variable (plays : Plays touches store task facts value)
include plays

theorem map (result : α → β) :
    Plays touches store (task >>= fun value => pure (result value)) facts (result value) := by
  have whole : Plays touches store (task >>= fun value => pure (result value)) (facts ++ [])
      (result value) := plays.bind (.done _ _)
  rwa [List.append_nil] at whole

/-- Only the touched keys matter. -/
theorem transport (agrees : store.Agrees touches other) : Plays touches other task facts value := by
  induction plays generalizing other with
  | done store value => exact .done other value
  | contains touch later ih =>
    refine .contains touch ?_
    rw [agrees.contains touch]
    exact ih agrees
  | isDisposer touch later ih =>
    refine .isDisposer touch ?_
    rw [agrees.isDisposer touch]
    exact ih agrees
  | write touch free later ih =>
    exact .write touch ((agrees.written _ touch).trans free) (ih (agrees.put _ _))
  | rewrite touch there later ih =>
    exact .rewrite touch ((agrees.written _ touch).trans there) (ih agrees)

/-- What a task does follows from the store. -/
theorem unique {result : α} (again : Plays touches store task more result) :
    more = facts ∧ result = value := by
  induction plays generalizing more with
  | done store value =>
    cases again
    exact ⟨rfl, rfl⟩
  | contains touch later ih =>
    cases again with
    | contains _ again => exact ih again
  | isDisposer touch later ih =>
    cases again with
    | isDisposer _ again => exact ih again
  | write touch free later ih =>
    cases again with
    | write _ _ again =>
      obtain ⟨same, sameResult⟩ := ih again
      exact ⟨by rw [same], sameResult⟩
    | rewrite _ there => cases free.symm.trans there
  | rewrite touch there later ih =>
    cases again with
    | write _ free => cases free.symm.trans there
    | rewrite _ _ again => exact ih again

theorem touches_of_mem : ∀ fact ∈ facts, touches fact.1 := by
  induction plays with
  | done store value => simp
  | contains touch later ih => exact ih
  | isDisposer touch later ih => exact ih
  | write touch free later ih =>
    exact List.forall_mem_cons.mpr ⟨touch, ih⟩
  | rewrite touch there later ih => exact ih

theorem of_value? (through : task.value?.isSome = true) : task = .done value ∧ facts = [] := by
  cases plays with
  | done => exact ⟨rfl, rfl⟩
  | _ => cases through

theorem step :
    ((task.step store).1 = store ∧ Plays touches store (task.step store).2 facts value) ∨
      ∃ key fact later, facts = (key, fact) :: later ∧
        (task.step store).1 = store.put key fact ∧
        Plays touches (store.put key fact) (task.step store).2 later value := by
  cases plays with
  | done => exact .inl ⟨rfl, .done store value⟩
  | contains touch later | isDisposer touch later => exact .inl ⟨rfl, later⟩
  | @write _ key fact next later _ touch free plays =>
    have wrote : store.write key fact = .ok (store.put key fact) := by
      unfold FactStore.write
      rw [free]
      rfl
    refine .inr ⟨key, fact, later, rfl, ?_⟩
    simp only [Task.step, wrote]
    exact ⟨trivial, plays⟩
  | @rewrite _ key fact next _ _ touch there plays =>
    have wrote : store.write key fact = .ok store := by
      unfold FactStore.write
      rw [there]
      exact if_pos rfl
    left
    simp only [Task.step, wrote]
    exact ⟨trivial, plays⟩

end Plays

end Task

/-! ### Interleavings -/

structure TaskPool (α : Type) where
  store : FactStore
  tasks : List (Task α)

namespace TaskPool

variable {α : Type} (pool : TaskPool α)

def turn (place : Nat) : TaskPool α :=
  match pool.tasks[place]? with
  | none => pool
  | some task => ⟨(task.step pool.store).1, pool.tasks.set place (task.step pool.store).2⟩

/-- One operation after another; a schedule names the task of each. -/
def play (schedule : List Nat) : TaskPool α := schedule.foldl turn pool

def Finished : Prop := ∀ task ∈ pool.tasks, task.value?.isSome = true

instance (pool : TaskPool α) : Decidable pool.Finished :=
  inferInstanceAs (Decidable (∀ task ∈ pool.tasks, task.value?.isSome = true))

theorem play_append (schedule later : List Nat) :
    pool.play (schedule ++ later) = (pool.play schedule).play later :=
  List.foldl_append

theorem play_cons_at (store : FactStore) (before after : List (Task α)) (task : Task α)
    (later : List Nat) :
    play ⟨store, before ++ task :: after⟩ (before.length :: later) =
      play ⟨(task.step store).1, before ++ (task.step store).2 :: after⟩ later := by
  simp [play, turn]

theorem exists_play_done (store : FactStore) (before after : List (Task α)) (task : Task α) :
    ∃ schedule final value,
      play ⟨store, before ++ task :: after⟩ schedule = ⟨final, before ++ .done value :: after⟩ := by
  induction task generalizing store with
  | done value => exact ⟨[], store, value, rfl⟩
  | contains key next ih =>
    obtain ⟨schedule, final, value, played⟩ := ih (store.contains key) store
    exact ⟨_ :: schedule, final, value, (play_cons_at ..).trans played⟩
  | isDisposer key next ih =>
    obtain ⟨schedule, final, value, played⟩ := ih (store.isDisposer key) store
    exact ⟨_ :: schedule, final, value, (play_cons_at ..).trans played⟩
  | write key fact next ih =>
    cases wrote : store.write key fact with
    | ok written =>
      obtain ⟨schedule, final, value, played⟩ := ih (.ok ()) written
      refine ⟨_ :: schedule, final, value, (play_cons_at ..).trans ?_⟩
      rw [Task.step, wrote]
      exact played
    | error error =>
      obtain ⟨schedule, final, value, played⟩ := ih (.error error) store
      refine ⟨_ :: schedule, final, value, (play_cons_at ..).trans ?_⟩
      rw [Task.step, wrote]
      exact played

theorem exists_play_finished : ∃ schedule, (pool.play schedule).Finished := by
  obtain ⟨store, tasks⟩ := pool
  have fromHere : ∀ before : List (Task α), Finished ⟨store, before⟩ →
      ∃ schedule, (play ⟨store, before ++ tasks⟩ schedule).Finished := by
    induction tasks generalizing store with
    | nil => exact fun before finished => ⟨[], by simpa [play] using finished⟩
    | cons task later ih =>
      intro before finished
      obtain ⟨schedule, final, value, played⟩ := exists_play_done store before later task
      obtain ⟨rest, through⟩ := ih final (before ++ [.done value])
        (List.forall_mem_append.mpr ⟨finished, by simp [Task.value?]⟩)
      refine ⟨schedule ++ rest, ?_⟩
      rw [play_append, played]
      simpa using through
  exact fromHere [] (by simp [Finished])

structure Plan (α : Type) where
  touches : FuncKey → Prop
  facts : List (FuncKey × Bool)
  value : α

def Plan.Spares (first second : Plan α) : Prop := ∀ fact ∈ first.facts, ¬second.touches fact.1

/-- The tasks of a pool follow plans that spare each other, at whose end a given
store is left. -/
structure Follows (pool : TaskPool α) (plans : List (Plan α)) (final : FactStore) : Prop where
  plays : List.Forall₂ (fun (plan : Plan α) task =>
    Task.Plays plan.touches pool.store task plan.facts plan.value) plans pool.tasks
  apart : plans.Pairwise fun first second => first.Spares second ∧ second.Spares first
  settles : pool.store.putAll (plans.flatMap Plan.facts) = final

/-- The plan of the task at a place, between those of the others. -/
theorem Follows.split {before after : List (Task α)} {task : Task α} {plans : List (Plan α)}
    (follows : Follows ⟨store, before ++ task :: after⟩ plans final) :
    ∃ first plan later, plans = first ++ plan :: later ∧
      List.Forall₂ (fun (plan : Plan α) task =>
        Task.Plays plan.touches store task plan.facts plan.value) first before ∧
      Task.Plays plan.touches store task plan.facts plan.value ∧
      List.Forall₂ (fun (plan : Plan α) task =>
        Task.Plays plan.touches store task plan.facts plan.value) later after := by
  have front := List.forall₂_take_append _ _ _ follows.plays
  have back := List.forall₂_drop_append _ _ _ follows.plays
  obtain ⟨plan, later, plays, others, rest⟩ := List.forall₂_cons_right_iff.mp back
  exact ⟨_, plan, later, by rw [← rest, List.take_append_drop], front, plays, others⟩

/-- Plans that do not touch a key go on as if no fact was added under it. -/
theorem forall₂_put {plans : List (Plan α)} {tasks : List (Task α)}
    (plays : List.Forall₂ (fun (plan : Plan α) task =>
      Task.Plays plan.touches store task plan.facts plan.value) plans tasks)
    (untouched : ∀ plan ∈ plans, ¬plan.touches key) (fact : Bool) :
    List.Forall₂ (fun (plan : Plan α) task =>
      Task.Plays plan.touches (store.put key fact) task plan.facts plan.value) plans tasks :=
  ((List.forall₂_and_left _ _).mpr ⟨untouched, plays⟩).imp fun _ _ both =>
    both.2.transport (.put_other both.1 store fact)

theorem turn_follows {pool : TaskPool α} {plans : List (Plan α)}
    (follows : pool.Follows plans final) (place : Nat) :
    ∃ next, next.map Plan.value = plans.map Plan.value ∧ (pool.turn place).Follows next final := by
  unfold turn
  split
  · exact ⟨plans, rfl, follows⟩
  · next task found =>
    obtain ⟨store, tasks⟩ := pool
    obtain ⟨before, after, rfl, rfl⟩ :
        ∃ before after, tasks = before ++ task :: after ∧ before.length = place := by
      obtain ⟨inside, rfl⟩ := List.getElem?_eq_some_iff.mp found
      exact ⟨tasks.take place, tasks.drop (place + 1), by simp, by simpa using Nat.le_of_lt inside⟩
    obtain ⟨first, plan, later, rfl, front, plays, back⟩ := follows.split
    rw [List.set_append_right _ _ (Nat.le_refl _), Nat.sub_self, List.set_cons_zero]
    have apart := follows.apart
    have settles := follows.settles
    rcases plays.step with ⟨same, plays⟩ | ⟨key, fact, facts, isNext, stored, remaining⟩
    · rw [same]
      exact ⟨_, rfl, List.rel_append front (.cons plays back), apart, settles⟩
    · -- The others do not touch the new fact's key.
      have next : (key, fact) ∈ plan.facts := by simp [isNext]
      have touch : plan.touches key := plays.touches_of_mem _ next
      rw [List.pairwise_append, List.pairwise_cons] at apart
      obtain ⟨apartFirst, ⟨fromLater, apartLater⟩, across⟩ := apart
      have untouchedFirst : ∀ other ∈ first, ¬other.touches key := fun other member =>
        (across other member plan List.mem_cons_self).2 _ next
      have untouchedLater : ∀ other ∈ later, ¬other.touches key := fun other member =>
        (fromLater other member).1 _ next
      have fewer {other : Plan α} (spares : plan.Spares other) :
          Plan.Spares ⟨plan.touches, facts, plan.value⟩ other := fun added member =>
        spares added (isNext ▸ List.mem_cons_of_mem _ member)
      refine ⟨first ++ ⟨plan.touches, facts, plan.value⟩ :: later, by simp, ?_⟩
      rw [stored]
      refine ⟨List.rel_append (forall₂_put front untouchedFirst fact)
        (.cons remaining (forall₂_put back untouchedLater fact)), ?_, ?_⟩
      · refine List.pairwise_append.mpr ⟨apartFirst, List.pairwise_cons.mpr ⟨?_, apartLater⟩, ?_⟩
        · exact fun other member => ⟨fewer (fromLater other member).1, (fromLater other member).2⟩
        · intro other member second inRest
          rcases List.mem_cons.mp inRest with rfl | inLater
          · have spares := across other member plan List.mem_cons_self
            exact ⟨spares.1, fewer spares.2⟩
          · exact across other member second (List.mem_cons_of_mem _ inLater)
      · have others : ∀ added ∈ first.flatMap Plan.facts, added.1 ≠ key := by
          intro added member same
          obtain ⟨other, inFirst, inFacts⟩ := List.mem_flatMap.mp member
          exact (across other inFirst plan List.mem_cons_self).1 added inFacts (same ▸ touch)
        rw [List.flatMap_append, List.flatMap_cons, isNext, FactStore.putAll_append] at settles
        rw [List.flatMap_append, List.flatMap_cons, FactStore.putAll_append,
          ← FactStore.putAll_put others]
        exact settles

/-- Whatever the schedule, the tasks keep to plans with the same values and the
same end. -/
theorem play_follows {pool : TaskPool α} {plans : List (Plan α)}
    (follows : pool.Follows plans final) (schedule : List Nat) :
    ∃ next, next.map Plan.value = plans.map Plan.value ∧
      (pool.play schedule).Follows next final := by
  induction schedule generalizing pool plans with
  | nil => exact ⟨plans, rfl, follows⟩
  | cons place later ih =>
    obtain ⟨next, values, follows⟩ := turn_follows follows place
    obtain ⟨last, sameValues, follows⟩ := ih follows
    exact ⟨last, sameValues.trans values, follows⟩

/-- When all tasks are through, the store and the values are as planned. -/
theorem Follows.finished {pool : TaskPool α} {plans : List (Plan α)} {final : FactStore}
    (follows : pool.Follows plans final) (finished : pool.Finished) :
    pool = ⟨final, plans.map fun plan => .done plan.value⟩ := by
  obtain ⟨store, tasks⟩ := pool
  obtain ⟨plays, apart, settles⟩ := follows
  have through : tasks = plans.map (fun plan => .done plan.value) ∧
      plans.flatMap Plan.facts = [] := by
    clear apart settles
    dsimp only at plays
    induction plays with
    | nil => exact ⟨rfl, rfl⟩
    | cons plays _ ih =>
      rw [Finished, List.forall_mem_cons] at finished
      obtain ⟨isDone, noFacts⟩ := plays.of_value? finished.1
      obtain ⟨othersDone, noOthers⟩ := ih finished.2
      rw [List.map_cons, ← isDone, ← othersDone, List.flatMap_cons, noFacts, noOthers]
      exact ⟨rfl, rfl⟩
  rw [through.2] at settles
  rw [through.1, ← settles]
  rfl

end TaskPool

end Unclosed
