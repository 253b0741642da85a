import Mathlib.Data.List.Nodup
import Mathlib.Data.String.Basic
import Unclosed.Ordered.Map

/-!
Maps and sets of texts in ascending order.  Inserting keeps the order, so the
entries of a map are its bindings, each once.
-/

namespace Unclosed

variable {text key : String} {texts : List String}

/-! ### Sets -/

theorem mem_insertAscending {other : String} :
    other ∈ insertAscending text texts ↔ other = text ∨ other ∈ texts := by
  induction texts with
  | nil => simp [insertAscending]
  | cons first later ih =>
    unfold insertAscending
    by_cases before : text < first
    · rw [if_pos before, List.mem_cons]
    · rw [if_neg before]
      by_cases same : text = first
      · rw [if_pos same, List.mem_cons, same]
        tauto
      · rw [if_neg same, List.mem_cons, ih, List.mem_cons]
        tauto

theorem mem_ascending : text ∈ ascending texts ↔ text ∈ texts := by
  induction texts with
  | nil => rfl
  | cons first later ih =>
    rw [List.mem_cons, ← ih]
    exact mem_insertAscending

theorem insertAscending_pairwise (text : String) (ascends : texts.Pairwise (· < ·)) :
    (insertAscending text texts).Pairwise (· < ·) := by
  induction texts with
  | nil => exact List.pairwise_singleton _ _
  | cons first later ih =>
    obtain ⟨above, ascendsLater⟩ := List.pairwise_cons.mp ascends
    unfold insertAscending
    by_cases before : text < first
    · rw [if_pos before, List.pairwise_cons]
      refine ⟨List.forall_mem_cons.mpr ⟨before, ?_⟩, ascends⟩
      exact fun other member => lt_trans before (above other member)
    · rw [if_neg before]
      by_cases same : text = first
      · rw [if_pos same]
        exact ascends
      · rw [if_neg same, List.pairwise_cons]
        refine ⟨?_, ih ascendsLater⟩
        intro other member
        rcases mem_insertAscending.mp member with rfl | member
        · exact lt_of_le_of_ne (not_lt.mp before) (Ne.symm same)
        · exact above other member

theorem ascending_pairwise (texts : List String) : (ascending texts).Pairwise (· < ·) := by
  induction texts with
  | nil => exact .nil
  | cons first later ih => exact insertAscending_pairwise first ih

theorem eq_of_ascending {first second : List String} (ascends : first.Pairwise (· < ·))
    (ascends' : second.Pairwise (· < ·)) (same : ∀ text, text ∈ first ↔ text ∈ second) :
    first = second := by
  have perm := (List.perm_ext_iff_of_nodup (ascends.imp ne_of_lt) (ascends'.imp ne_of_lt)).mpr same
  exact perm.eq_of_pairwise (fun _ _ _ _ less greater => absurd greater less.asymm) ascends ascends'

namespace OrderedMap

variable {α : Type} {map : OrderedMap α}

/-! ### Bindings -/

theorem lookup_insertEntry (key other : String) (value : α) (entries : List (String × α)) :
    lookup other (insertEntry key value entries) =
      if other = key then some value else lookup other entries := by
  induction entries with
  | nil => rfl
  | cons entry later ih =>
    obtain ⟨first, old⟩ := entry
    unfold insertEntry
    by_cases before : key < first
    · rw [if_pos before, lookup]
    · rw [if_neg before]
      by_cases same : key = first
      · rw [if_pos same, lookup, lookup, ← same]
        by_cases asked : other = key
        · rw [if_pos asked, if_pos asked]
        · rw [if_neg asked, if_neg asked, if_neg asked]
      · rw [if_neg same, lookup, lookup, ih]
        by_cases asked : other = first
        · have apart : other ≠ key := fun equal => same (equal.symm.trans asked)
          rw [if_pos asked, if_pos asked, if_neg apart]
        · rw [if_neg asked, if_neg asked]

theorem get?_insert (map : OrderedMap α) (key other : String) (value : α) :
    (map.insert key value).get? other = if other = key then some value else map.get? other :=
  lookup_insertEntry key other value map.entries

theorem get?_modify (map : OrderedMap α) (key other : String) (change : Option α → α) :
    (map.modify key change).get? other =
      if other = key then some (change (map.get? key)) else map.get? other :=
  map.get?_insert key other _

theorem lookup_eq_none_iff {entries : List (String × α)} :
    lookup key entries = none ↔ key ∉ entries.map Prod.fst := by
  induction entries with
  | nil => simp [lookup]
  | cons entry later ih =>
    obtain ⟨first, value⟩ := entry
    unfold lookup
    by_cases same : key = first
    · simp [same]
    · rw [if_neg same, ih, List.map_cons, List.mem_cons]
      tauto

theorem mem_keys_iff : key ∈ map.keys ↔ ∃ value, map.get? key = some value := by
  rw [← Option.ne_none_iff_exists', ne_eq, get?, lookup_eq_none_iff, not_not, keys]

/-! ### Order -/

def Ascending (map : OrderedMap α) : Prop :=
  map.entries.Pairwise fun first second => first.1 < second.1

theorem mem_insertEntry {value : α} {entries : List (String × α)} {entry : String × α}
    (member : entry ∈ insertEntry key value entries) :
    entry = (key, value) ∨ entry ∈ entries := by
  induction entries with
  | nil => exact .inl (List.mem_singleton.mp member)
  | cons first later ih =>
    unfold insertEntry at member
    split at member
    · exact List.mem_cons.mp member
    · split at member
      · exact (List.mem_cons.mp member).imp_right (List.mem_cons_of_mem first)
      · rcases List.mem_cons.mp member with rfl | member
        · exact .inr List.mem_cons_self
        · exact (ih member).imp_right (List.mem_cons_of_mem first)

theorem empty_ascending : (empty : OrderedMap α).Ascending := .nil

section

variable (ascending : map.Ascending)
include ascending

theorem insert_ascending (key : String) (value : α) : (map.insert key value).Ascending := by
  obtain ⟨entries⟩ := map
  unfold Ascending insert at *
  dsimp only at *
  induction entries with
  | nil => exact List.pairwise_singleton _ _
  | cons entry later ih =>
    obtain ⟨first, old⟩ := entry
    obtain ⟨above, ascendingLater⟩ := List.pairwise_cons.mp ascending
    unfold insertEntry
    by_cases before : key < first
    · rw [if_pos before, List.pairwise_cons]
      refine ⟨List.forall_mem_cons.mpr ⟨before, ?_⟩, ascending⟩
      exact fun other member => lt_trans before (above other member)
    · rw [if_neg before]
      by_cases same : key = first
      · rw [if_pos same, List.pairwise_cons, same]
        exact ⟨above, ascendingLater⟩
      · rw [if_neg same, List.pairwise_cons]
        refine ⟨?_, ih ascendingLater⟩
        intro other member
        rcases mem_insertEntry member with rfl | member
        · exact lt_of_le_of_ne (not_lt.mp before) (Ne.symm same)
        · exact above other member

theorem modify_ascending (key : String) (change : Option α → α) :
    (map.modify key change).Ascending :=
  insert_ascending ascending key _

theorem keys_pairwise : map.keys.Pairwise (· < ·) :=
  List.pairwise_map.mpr ascending

theorem mem_entries_iff {value : α} : (key, value) ∈ map.entries ↔ map.get? key = some value := by
  obtain ⟨entries⟩ := map
  unfold Ascending get? at *
  dsimp only at *
  induction entries with
  | nil => simp [lookup]
  | cons entry later ih =>
    obtain ⟨first, old⟩ := entry
    obtain ⟨above, ascendingLater⟩ := List.pairwise_cons.mp ascending
    unfold lookup
    by_cases same : key = first
    · subst same
      have absent : (key, value) ∉ later := fun member => absurd (above _ member) (lt_irrefl _)
      rw [if_pos rfl, List.mem_cons, Option.some_inj, Prod.mk.injEq]
      simp [absent, eq_comm]
    · rw [if_neg same, List.mem_cons, Prod.mk.injEq, ← ih ascendingLater]
      simp [same]

end

/-! ### Lists of bindings -/

theorem insertEntry_last {value : α} {entries : List (String × α)}
    (last : ∀ entry ∈ entries, entry.1 < key) :
    insertEntry key value entries = entries ++ [(key, value)] := by
  induction entries with
  | nil => rfl
  | cons entry later ih =>
    rw [List.forall_mem_cons] at last
    unfold insertEntry
    rw [if_neg (lt_asymm last.1), if_neg (ne_of_gt last.1), ih last.2, List.cons_append]

theorem ofList_ascending (bindings : List (String × α)) : (ofList bindings).Ascending := by
  suffices every : ∀ map : OrderedMap α, map.Ascending →
      (bindings.foldl (fun map entry => map.insert entry.1 entry.2) map).Ascending from
    every empty empty_ascending
  intro map ascending
  induction bindings generalizing map with
  | nil => exact ascending
  | cons binding later ih =>
    exact ih _ (insert_ascending ascending _ _)

theorem ofList_entries (ascending : map.Ascending) : ofList map.entries = map := by
  -- What is bound so far comes before what is still to be bound.
  have behind : ∀ before later : List (String × α),
      (before ++ later).Pairwise (fun first second => first.1 < second.1) →
      later.foldl (fun map entry => map.insert entry.1 entry.2) ⟨before⟩
        = (⟨before ++ later⟩ : OrderedMap α) := by
    intro before later ascends
    induction later generalizing before with
    | nil => rw [List.append_nil, List.foldl_nil]
    | cons entry later ih =>
      obtain ⟨key, value⟩ := entry
      have last : ∀ other ∈ before, other.1 < key := fun other member =>
        (List.pairwise_append.mp ascends).2.2 other member _ List.mem_cons_self
      rw [List.append_cons] at ascends ⊢
      rw [List.foldl_cons, ← ih _ ascends, ← insertEntry_last last]
      rfl
  exact behind [] map.entries ascending

end OrderedMap
end Unclosed
