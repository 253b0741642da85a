import Mathlib.Data.Finset.Card
import Unclosed.Proofs.FactWrites

/-!
Histories of a fact store.  Whatever is asked of a store and written to it, each
key keeps the fact of its first write, and every answer can be told from the
calls before it and the fallback.

A call holds the lock of the store, so the calls of several callers come one
after another, and each way to interleave them is a history.
-/

namespace Unclosed

variable {key : FuncKey} {fact existing : Bool}

inductive StoreCall where
  | write (key : FuncKey) (fact : Bool)
  | find (key : FuncKey)
  | isDisposer (key : FuncKey)
  | contains (key : FuncKey)
  | size
  | snapshot

inductive StoreAnswer where
  | written (outcome : Except FactError Unit)
  | found (fact : Option Bool)
  | flag (value : Bool)
  | count (size : Nat)
  | facts (listed : List (FuncKey × Bool))

namespace FactStore

def answer (store : FactStore) : StoreCall → StoreAnswer × FactStore
  | .write key fact =>
    match store.write key fact with
    | .ok after => (.written (.ok ()), after)
    | .error error => (.written (.error error), store)
  | .find key => (.found (store.fact? key), store)
  | .isDisposer key => (.flag (store.isDisposer key), store)
  | .contains key => (.flag (store.contains key), store)
  | .size => (.count store.size, store)
  | .snapshot => (.facts store.snapshot, store)

def answerAll (store : FactStore) : List StoreCall → List StoreAnswer × FactStore
  | [] => ([], store)
  | call :: later =>
    let (answer, after) := store.answer call
    let (answers, final) := answerAll after later
    (answer :: answers, final)

end FactStore

/-! ### What a history says -/

namespace StoreCall

def writtenKey? : StoreCall → Option FuncKey
  | write key _ => some key
  | _ => none

def firstWrite? (key : FuncKey) : List StoreCall → Option Bool
  | [] => none
  | write other fact :: later => if other = key then some fact else firstWrite? key later
  | _ :: later => firstWrite? key later

def writeOutcome (key : FuncKey) (fact : Bool) : Option Bool → Except FactError Unit
  | none => .ok ()
  | some existing => if existing = fact then .ok () else .error (.conflict key existing fact)

def Asks (fallback : OrderedMap Bool) (before : List StoreCall) : StoreCall → StoreAnswer → Prop
  | write key fact, .written outcome => outcome = writeOutcome key fact (firstWrite? key before)
  | find key, .found fact => fact = (firstWrite? key before).or (fallback.get? key.text)
  | isDisposer key, .flag value =>
    value = true ↔ (firstWrite? key before).or (fallback.get? key.text) = some true
  | contains key, .flag value => value = true ↔ ∃ fact, firstWrite? key before = some fact
  | size, .count count => count = (before.filterMap writtenKey?).toFinset.card
  | snapshot, .facts listed =>
    listed.Pairwise (fun first second => first.1.text < second.1.text) ∧
      ∀ key fact, (key, fact) ∈ listed ↔ firstWrite? key before = some fact
  | _, _ => False

theorem firstWrite?_append (key : FuncKey) (before later : List StoreCall) :
    firstWrite? key (before ++ later) = (firstWrite? key before).or (firstWrite? key later) := by
  induction before with
  | nil => rfl
  | cons call others ih =>
    cases call with
    | write other fact =>
      rw [List.cons_append, firstWrite?, firstWrite?]
      by_cases same : other = key
      · rw [if_pos same, if_pos same, Option.some_or]
      · rw [if_neg same, if_neg same, ih]
    | _ => exact ih

theorem mem_writtenKeys_iff {calls : List StoreCall} :
    key ∈ calls.filterMap writtenKey? ↔ ∃ fact, firstWrite? key calls = some fact := by
  induction calls with
  | nil => simp [firstWrite?]
  | cons call later ih =>
    cases call with
    | write other fact =>
      rw [firstWrite?, List.filterMap_cons, writtenKey?, List.mem_cons]
      by_cases same : other = key
      · rw [if_pos same]
        exact ⟨fun _ => ⟨fact, rfl⟩, fun _ => .inl same.symm⟩
      · rw [if_neg same, ih]
        exact or_iff_right (Ne.symm same)
    | _ => exact ih

end StoreCall

namespace FactStore

open StoreCall

/-! ### Calls -/

structure Holds (store : FactStore) (fallback : OrderedMap Bool) (history : List StoreCall) :
    Prop where
  ascending : store.written.Ascending
  written : ∀ key, store.written.get? key.text = firstWrite? key history
  fallback : store.fallback = fallback

variable {store : FactStore} {fallback : OrderedMap Bool} {history : List StoreCall}

namespace Holds

theorem initially (fallback : OrderedMap Bool) : Holds (withFallback fallback) fallback [] :=
  ⟨OrderedMap.empty_ascending, fun _ => rfl, rfl⟩

variable (holds : store.Holds fallback history)
include holds

theorem fact?_eq (key : FuncKey) :
    store.fact? key = (firstWrite? key history).or (fallback.get? key.text) := by
  unfold fact?
  rw [holds.written, holds.fallback]
  cases firstWrite? key history <;> rfl

theorem mem_snapshot_iff : (key, fact) ∈ store.snapshot ↔ firstWrite? key history = some fact := by
  rw [← holds.written, ← OrderedMap.mem_entries_iff holds.ascending, snapshot, List.mem_map]
  constructor
  · rintro ⟨_, member, ⟨⟩⟩
    exact member
  · exact fun member => ⟨_, member, rfl⟩

theorem snapshot_pairwise :
    store.snapshot.Pairwise fun first second => first.1.text < second.1.text :=
  List.pairwise_map.mpr holds.ascending

theorem size_eq : store.size = (history.filterMap writtenKey?).toFinset.card := by
  have distinct : (store.snapshot.map Prod.fst).Nodup := by
    refine List.pairwise_map.mpr (holds.snapshot_pairwise.imp ?_)
    intro first second before same
    rw [same] at before
    exact lt_irrefl _ before
  have sameKeys : (store.snapshot.map Prod.fst).toFinset =
      (history.filterMap writtenKey?).toFinset := by
    ext key
    rw [List.mem_toFinset, List.mem_toFinset, mem_writtenKeys_iff]
    simp only [← holds.mem_snapshot_iff, List.mem_map, Prod.exists, exists_and_right,
      exists_eq_right]
  calc store.size
    _ = (store.snapshot.map Prod.fst).length := by simp [size, OrderedMap.size, snapshot]
    _ = (store.snapshot.map Prod.fst).toFinset.card := (List.toFinset_card_of_nodup distinct).symm
    _ = _ := by rw [sameKeys]

theorem write_again (found : store.written.get? key.text = some existing) (fact : Bool) :
    store.Holds fallback (history ++ [.write key fact]) := by
  refine ⟨holds.ascending, fun asked => ?_, holds.fallback⟩
  rw [firstWrite?_append, ← holds.written]
  by_cases same : key = asked
  · rw [← same, found, Option.some_or]
  · rw [firstWrite?, if_neg same, firstWrite?, Option.or_none]

theorem write_new (free : store.written.get? key.text = none) (fact : Bool) :
    Holds ⟨store.written.insert key.text fact, store.fallback⟩ fallback
      (history ++ [.write key fact]) := by
  refine ⟨OrderedMap.insert_ascending holds.ascending _ _, fun asked => ?_, holds.fallback⟩
  rw [firstWrite?_append, ← holds.written, OrderedMap.get?_insert, firstWrite?]
  by_cases same : key = asked
  · rw [if_pos same, ← same, if_pos rfl, free, Option.none_or]
  · have apart : asked.text ≠ key.text := fun equal =>
      same (by cases key; cases asked; cases equal; rfl)
    rw [if_neg same, if_neg apart, firstWrite?, Option.or_none]

theorem after (call : StoreCall) : (store.answer call).2.Holds fallback (history ++ [call]) := by
  cases call with
  | write key fact =>
    dsimp only [answer]
    rcases store.write_cases key fact with
      ⟨found, wrote⟩ | ⟨existing, _, found, wrote⟩ | ⟨free, wrote⟩
    · rw [wrote]
      exact holds.write_again found fact
    · rw [wrote]
      exact holds.write_again found fact
    · rw [wrote]
      exact holds.write_new free fact
  | _ =>
    refine ⟨holds.ascending, fun asked => ?_, holds.fallback⟩
    rw [firstWrite?_append, ← holds.written]
    exact (Option.or_none).symm

theorem asks (call : StoreCall) : call.Asks fallback history (store.answer call).1 := by
  cases call with
  | write key fact =>
    dsimp only [answer]
    rcases store.write_cases key fact with
      ⟨found, wrote⟩ | ⟨existing, differs, found, wrote⟩ | ⟨free, wrote⟩
    · rw [wrote]
      dsimp only [Asks]
      rw [← holds.written, found, writeOutcome, if_pos rfl]
    · rw [wrote]
      dsimp only [Asks]
      rw [← holds.written, found, writeOutcome, if_neg differs]
    · rw [wrote]
      dsimp only [Asks]
      rw [← holds.written, free, writeOutcome]
  | find key => exact holds.fact?_eq key
  | isDisposer key =>
    change (store.fact? key).getD false = true ↔ _
    rw [holds.fact?_eq]
    cases (firstWrite? key history).or (fallback.get? key.text) <;> simp
  | contains key =>
    change (store.written.get? key.text).isSome = true ↔ _
    rw [holds.written, Option.isSome_iff_exists]
  | size => exact holds.size_eq
  | snapshot => exact ⟨holds.snapshot_pairwise, fun _ _ => holds.mem_snapshot_iff⟩

/-- A write against the first one of its key is refused. -/
theorem refuses (first : firstWrite? key history = some existing) (differs : existing ≠ fact) :
    store.answer (.write key fact) = (.written (.error (.conflict key existing fact)), store) := by
  simp only [answer, write, holds.written, first, if_neg differs]

end Holds

/-! ### Histories -/

theorem answerAll_holds (holds : store.Holds fallback history) (calls : List StoreCall) :
    (store.answerAll calls).2.Holds fallback (history ++ calls) := by
  induction calls generalizing store history with
  | nil =>
    rw [List.append_nil]
    exact holds
  | cons call later ih =>
    rw [List.append_cons]
    exact ih (holds.after call)

theorem answerAll_asks (holds : store.Holds fallback history) (calls : List StoreCall)
    {index : Nat} {call : StoreCall} (asked : calls[index]? = some call) :
    ∃ answer, (store.answerAll calls).1[index]? = some answer ∧
      call.Asks fallback (history ++ calls.take index) answer := by
  induction calls generalizing store history index with
  | nil => cases asked
  | cons first later ih =>
    cases index with
    | zero =>
      cases asked
      refine ⟨_, rfl, ?_⟩
      rw [List.take_zero, List.append_nil]
      exact holds.asks call
    | succ index =>
      obtain ⟨answer, answered, asks⟩ := ih (holds.after first) asked
      refine ⟨answer, answered, ?_⟩
      rwa [List.take_succ_cons, List.append_cons]

/-- Over every history, a store answers each call as the calls before it ask, holds
the first write of each key and keeps the fallback; a write against the first one
of its key is refused and changes nothing. -/
theorem answerAll_first_writes (fallback : OrderedMap Bool) (calls : List StoreCall) :
    (∀ (index : Nat) (call : StoreCall), calls[index]? = some call →
      ∃ answer, ((withFallback fallback).answerAll calls).1[index]? = some answer ∧
        call.Asks fallback (calls.take index) answer) ∧
    (∀ key, ((withFallback fallback).answerAll calls).2.written.get? key.text =
      firstWrite? key calls) ∧
    ((withFallback fallback).answerAll calls).2.fallback = fallback ∧
    ∀ key existing fact, firstWrite? key calls = some existing → existing ≠ fact →
      ((withFallback fallback).answerAll calls).2.answer (.write key fact) =
        (.written (.error (.conflict key existing fact)),
         ((withFallback fallback).answerAll calls).2) := by
  have initially := Holds.initially fallback
  have final := answerAll_holds initially calls
  refine ⟨fun index call asked => answerAll_asks initially calls asked, final.written,
    final.fallback, ?_⟩
  intro key existing fact first differs
  exact final.refuses first differs

def sampleFallback : OrderedMap Bool := .ofList [("app.a", true), ("app.b", true)]

def sampleCalls : List StoreCall :=
  [.find ⟨"app.b"⟩, .write ⟨"app.b"⟩ false, .write ⟨"app.b"⟩ true, .find ⟨"app.b"⟩, .size]

/-- The second write is refused, then and later, and the fallback is not counted. -/
theorem sample_first_writes :
    firstWrite? ⟨"app.b"⟩ sampleCalls = some false ∧
      ((withFallback sampleFallback).answerAll sampleCalls).1[2]? =
        some (.written (.error (.conflict ⟨"app.b"⟩ false true))) ∧
      ((withFallback sampleFallback).answerAll sampleCalls).1[4]? = some (.count 1) ∧
      ((withFallback sampleFallback).answerAll sampleCalls).2.answer (.write ⟨"app.b"⟩ true) =
        (.written (.error (.conflict ⟨"app.b"⟩ false true)),
         ((withFallback sampleFallback).answerAll sampleCalls).2) := by
  obtain ⟨answers, _, _, refuses⟩ := answerAll_first_writes sampleFallback sampleCalls
  obtain ⟨refused, atWrite, conflict⟩ := answers 2 (.write ⟨"app.b"⟩ true) rfl
  obtain ⟨counted, atSize, count⟩ := answers 4 .size rfl
  refine ⟨rfl, ?_, ?_, refuses _ _ _ rfl (by decide)⟩
  · cases refused with
    | written outcome =>
      rw [atWrite]
      exact congrArg (fun outcome => some (StoreAnswer.written outcome)) conflict
    | _ => exact conflict.elim
  · cases counted with
    | count size =>
      rw [atSize]
      exact congrArg (fun size => some (StoreAnswer.count size)) count
    | _ => exact count.elim

end FactStore
end Unclosed
