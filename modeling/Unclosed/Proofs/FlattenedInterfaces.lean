import Mathlib.Data.Finset.Card
import Mathlib.Data.Finset.Range
import Mathlib.Data.List.Nodup
import Mathlib.Data.List.Perm.Basic
import Mathlib.Data.String.Basic
import Mathlib.Logic.Relation
import Unclosed.Proofs.BuiltTables
import Unclosed.Types.Interface

/-!
The methods of an interface and of the interfaces it embeds.  Interfaces may
embed each other in a circle or by several ways; each is collected once, and
the result has the name of every method that one of them declares.
-/

namespace Unclosed.TypeTable

variable {method : String × TypeId} {id interface : TypeId} {type : InterfaceType}
  {methods : List (String × TypeId)}

/-! ### Lists of methods -/

theorem find?_addNew (methods : List (String × TypeId)) (method : String × TypeId)
    (name : String) :
    (addNew methods method).find? (·.1 == name) = (methods ++ [method]).find? (·.1 == name) := by
  unfold addNew
  split
  · next known =>
    rw [List.find?_append]
    cases found : methods.find? (·.1 == name) with
    | some entry => rfl
    | none =>
      obtain ⟨entry, member, same⟩ := List.any_eq_true.mp known
      have other := List.find?_eq_none.mp found entry member
      rw [beq_iff_eq] at same
      rw [same] at other
      simp [other]
  · rfl

theorem find?_foldl_addNew (added methods : List (String × TypeId)) (name : String) :
    (added.foldl addNew methods).find? (·.1 == name) = (methods ++ added).find? (·.1 == name) := by
  induction added generalizing methods with
  | nil => rw [List.foldl_nil, List.append_nil]
  | cons method later ih =>
    rw [List.foldl_cons, ih, List.find?_append, find?_addNew,
      ← List.find?_append, List.append_assoc, List.singleton_append]

def Distinct (methods : List (String × TypeId)) : Prop := (methods.map Prod.fst).Nodup

theorem distinct_nil : Distinct [] := List.nodup_nil

theorem Distinct.addNew (distinct : Distinct methods) (method : String × TypeId) :
    Distinct (addNew methods method) := by
  unfold TypeTable.addNew
  split
  · exact distinct
  · next unknown =>
    unfold Distinct
    rw [List.map_append, List.map_singleton, ← List.concat_eq_append]
    refine List.Nodup.concat (fun member => unknown ?_) distinct
    obtain ⟨entry, inMethods, same⟩ := List.mem_map.mp member
    exact List.any_eq_true.mpr ⟨entry, inMethods, beq_iff_eq.mpr same⟩

theorem Distinct.foldl_addNew (distinct : Distinct methods) (added : List (String × TypeId)) :
    Distinct (added.foldl TypeTable.addNew methods) := by
  induction added generalizing methods with
  | nil => exact distinct
  | cons method later ih => exact ih (distinct.addNew method)

theorem Distinct.mem_iff_find? (distinct : Distinct methods) (name : String) (signature : TypeId) :
    (name, signature) ∈ methods ↔ methods.find? (·.1 == name) = some (name, signature) := by
  refine ⟨fun member => ?_, List.mem_of_find?_eq_some⟩
  induction methods with
  | nil => cases member
  | cons first later ih =>
    unfold Distinct at distinct
    rw [List.map_cons, List.nodup_cons] at distinct
    rcases List.mem_cons.mp member with rfl | member
    · exact List.find?_cons_of_pos (beq_self_eq_true name)
    · have other : first.1 ≠ name := by
        rintro rfl
        exact distinct.1 (List.mem_map.mpr ⟨_, member, rfl⟩)
      rw [List.find?_cons_of_neg (by simpa using other)]
      exact ih distinct.2 member

def Has (methods : List (String × TypeId)) (name : String) : Prop :=
  ∃ signature, (name, signature) ∈ methods

theorem has_iff_find? (methods : List (String × TypeId)) (name : String) :
    Has methods name ↔ (methods.find? (·.1 == name)).isSome = true := by
  rw [List.find?_isSome]
  constructor
  · rintro ⟨signature, member⟩
    exact ⟨_, member, beq_self_eq_true name⟩
  · rintro ⟨⟨other, signature⟩, member, same⟩
    obtain rfl := beq_iff_eq.mp same
    exact ⟨signature, member⟩

theorem has_foldl_addNew (added methods : List (String × TypeId)) (name : String) :
    Has (added.foldl addNew methods) name ↔ Has methods name ∨ Has added name := by
  rw [has_iff_find?, find?_foldl_addNew, ← has_iff_find?]
  simp only [Has, List.mem_append, exists_or]

theorem mem_of_mem_foldl_addNew {added methods : List (String × TypeId)}
    (member : method ∈ added.foldl addNew methods) :
    method ∈ methods ∨ method ∈ added := by
  induction added generalizing methods with
  | nil => exact .inl member
  | cons first later ih =>
    rcases ih member with known | isLater
    · unfold addNew at known
      split at known
      · exact .inl known
      · rcases List.mem_append.mp known with known | isFirst
        · exact .inl known
        · exact .inr (List.mem_singleton.mp isFirst ▸ List.mem_cons_self)
    · exact .inr (List.mem_cons_of_mem _ isLater)

variable (table : TypeTable)

/-! ### Embedding -/

/-- One interface embeds another, as it stands or by a name. -/
def Embeds (outer inner : TypeId) : Prop :=
  ∃ type innerType, table.get outer = .interface type ∧ table.get inner = .interface innerType ∧
    inner ∈ type.embedded.map table.underlying

def Declares (interface : TypeId) (method : String × TypeId) : Prop :=
  ∃ type, table.get interface = .interface type ∧ method ∈ type.methods

/-- A step from a named type to what it stands for, or from an interface to a
type that it embeds. -/
inductive Leads : TypeId → TypeId → Prop
  | named {id : TypeId} {type : NamedType} (kind : table.get id = .named type) :
      Leads id type.underlying
  | embedded {id inner : TypeId} {type : InterfaceType} (kind : table.get id = .interface type)
      (member : inner ∈ type.embedded) : Leads id inner

variable {table} in
/-- A chain of embeddings to an interface starts from an interface. -/
theorem interface_of_reaches (reaches : Relation.ReflTransGen table.Embeds id interface)
    (kind : table.get interface = .interface type) : ∃ first, table.get id = .interface first := by
  rcases reaches.cases_head with rfl | ⟨next, ⟨first, _, isInterface, _⟩, _⟩
  · exact ⟨type, kind⟩
  · exact ⟨first, isInterface⟩

/-! ### Collecting -/

/-- The course of a collection over a list of types: an interface that has not
been seen is entered with its methods, and the types embedded in it are collected
before the later types of the list. -/
inductive Collects : List TypeId → MethodSearch → MethodSearch → Prop
  | done (search : MethodSearch) : Collects [] search search
  | known {id : TypeId} {later : List TypeId} {search result : MethodSearch}
      (known : table.underlying id ∈ search.seen) (rest : Collects later search result) :
      Collects (id :: later) search result
  | other {id : TypeId} {later : List TypeId} {search result : MethodSearch}
      (other : ∀ type, table.get (table.underlying id) ≠ .interface type)
      (rest : Collects later search result) : Collects (id :: later) search result
  | interface {id : TypeId} {later : List TypeId} {search middle result : MethodSearch}
      {type : InterfaceType} (new : table.underlying id ∉ search.seen)
      (kind : table.get (table.underlying id) = .interface type)
      (inner : Collects type.embedded
        ⟨type.methods.foldl addNew search.methods, table.underlying id :: search.seen⟩ middle)
      (rest : Collects later middle result) : Collects (id :: later) search result

variable {table}

namespace Collects

variable {ids : List TypeId} {search result : MethodSearch}

section

variable (collects : table.Collects ids search result)
include collects

theorem seen_subset : search.seen ⊆ result.seen := by
  induction collects with
  | done => exact List.Subset.refl _
  | known _ _ kept => exact kept
  | other _ _ kept => exact kept
  | interface _ _ _ _ keptInner keptRest =>
    exact fun type member => keptRest (keptInner (List.mem_cons_of_mem _ member))

theorem has {name : String} (before : Has search.methods name) : Has result.methods name := by
  induction collects with
  | done => exact before
  | known _ _ kept | other _ _ kept => exact kept before
  | interface _ _ _ _ keptInner keptRest =>
    exact keptRest (keptInner ((has_foldl_addNew _ _ _).mpr (.inl before)))

theorem distinct (before : Distinct search.methods) : Distinct result.methods := by
  induction collects with
  | done => exact before
  | known _ _ kept | other _ _ kept => exact kept before
  | interface _ _ _ _ keptInner keptRest => exact keptRest (keptInner (before.foldl_addNew _))

theorem sound :
    ∀ method ∈ result.methods, method ∈ search.methods ∨
      ∃ id ∈ ids, ∃ interface, Relation.ReflTransGen table.Embeds (table.underlying id) interface ∧
        table.Declares interface method := by
  induction collects with
  | done => exact fun method member => .inl member
  | known _ _ soundRest | other _ _ soundRest =>
    intro method member
    rcases soundRest method member with before | ⟨id, inLater, found⟩
    · exact .inl before
    · exact .inr ⟨id, List.mem_cons_of_mem _ inLater, found⟩
  | @interface id later search middle result type _ kind inner _ soundInner soundRest =>
    intro method member
    rcases soundRest method member with inMiddle | ⟨other, inLater, found⟩
    · rcases soundInner method inMiddle with inOwn | ⟨next, embedded, inner, reaches, declares⟩
      · rcases mem_of_mem_foldl_addNew inOwn with before | own
        · exact .inl before
        · exact .inr ⟨id, List.mem_cons_self, _, .refl, type, kind, own⟩
      · have ⟨_, innerKind, _⟩ := declares
        obtain ⟨nextType, nextKind⟩ := interface_of_reaches reaches innerKind
        have step : table.Embeds (table.underlying id) (table.underlying next) :=
          ⟨type, nextType, kind, nextKind, List.mem_map_of_mem embedded⟩
        exact .inr ⟨id, List.mem_cons_self, inner, .head step reaches, declares⟩
    · exact .inr ⟨other, List.mem_cons_of_mem _ inLater, found⟩

/-- The interfaces among the types are seen in the end. -/
theorem enters :
    ∀ id ∈ ids, ∀ type, table.get (table.underlying id) = .interface type →
      table.underlying id ∈ result.seen := by
  induction collects with
  | done => exact fun id member => absurd member List.not_mem_nil
  | known known rest entersRest =>
    intro id member type kind
    rcases List.mem_cons.mp member with rfl | inLater
    · exact rest.seen_subset known
    · exact entersRest id inLater type kind
  | other other _ entersRest =>
    intro id member type kind
    rcases List.mem_cons.mp member with rfl | inLater
    · exact absurd kind (other type)
    · exact entersRest id inLater type kind
  | interface _ _ inner rest _ entersRest =>
    intro id member type kind
    rcases List.mem_cons.mp member with rfl | inLater
    · exact rest.seen_subset (inner.seen_subset List.mem_cons_self)
    · exact entersRest id inLater type kind

/-- The methods and the embedded interfaces of an interface that is new are
collected in the end. -/
theorem complete :
    ∀ interface ∈ result.seen, interface ∈ search.seen ∨
      (∀ inner, table.Embeds interface inner → inner ∈ result.seen) ∧
        ∀ method, table.Declares interface method → Has result.methods method.1 := by
  induction collects with
  | done => exact fun interface member => .inl member
  | known _ _ completeRest | other _ _ completeRest => exact completeRest
  | @interface id later search middle result type _ kind inner rest completeInner completeRest =>
    intro interface member
    rcases completeRest interface member with inMiddle | finished
    · rcases completeInner interface inMiddle with entered | ⟨embedded, declared⟩
      · rcases List.mem_cons.mp entered with rfl | before
        -- The interface that is entered here: its methods are taken first, and
        -- the interfaces it embeds are seen when the inner collection ends.
        · refine .inr ⟨?_, ?_⟩
          · rintro next ⟨same, nextType, sameKind, nextKind, member⟩
            rw [kind] at sameKind
            cases sameKind
            obtain ⟨source, inEmbedded, rfl⟩ := List.mem_map.mp member
            exact rest.seen_subset (inner.enters source inEmbedded nextType nextKind)
          · rintro method ⟨same, sameKind, member⟩
            rw [kind] at sameKind
            cases sameKind
            exact rest.has (inner.has ((has_foldl_addNew _ _ _).mpr (.inr ⟨_, member⟩)))
        · exact .inl before
      · exact .inr ⟨fun next embeds => rest.seen_subset (embedded next embeds),
          fun method declares => rest.has (declared method declares)⟩
    · exact .inr finished

end

/-- From nothing, every interface that the type leads to is seen. -/
theorem reached (collects : table.Collects [id] ⟨[], []⟩ result)
    (reaches : Relation.ReflTransGen table.Embeds (table.underlying id) interface)
    (kind : table.get interface = .interface type) :
    interface ∈ result.seen := by
  obtain ⟨first, firstKind⟩ := interface_of_reaches reaches kind
  have start : table.underlying id ∈ result.seen :=
    collects.enters id List.mem_cons_self first firstKind
  clear kind
  induction reaches with
  | refl => exact start
  | tail _ embeds seen =>
    exact ((collects.complete _ seen).resolve_left List.not_mem_nil).1 _ embeds

end Collects

variable (table)

/-! ### The collection ends -/

def unseen (search : MethodSearch) : Nat :=
  ((Finset.range table.size).filter fun index => (⟨index⟩ : TypeId) ∉ search.seen).card

theorem unseen_le_size (search : MethodSearch) : table.unseen search ≤ table.size :=
  (Finset.card_filter_le _ _).trans (Finset.card_range _).le

variable {table}

theorem unseen_mono {first second : MethodSearch} (more : first.seen ⊆ second.seen) :
    table.unseen second ≤ table.unseen first := by
  apply Finset.card_le_card
  intro index member
  rw [Finset.mem_filter] at member ⊢
  exact ⟨member.1, fun seen => member.2 (more seen)⟩

theorem unseen_enter {search : MethodSearch} (inside : id.index < table.size)
    (new : id ∉ search.seen) (methods : List (String × TypeId)) :
    table.unseen ⟨methods, id :: search.seen⟩ < table.unseen search := by
  apply Finset.card_lt_card
  rw [Finset.ssubset_iff_of_subset]
  · refine ⟨id.index, Finset.mem_filter.mpr ⟨Finset.mem_range.mpr inside, new⟩, ?_⟩
    intro member
    exact (Finset.mem_filter.mp member).2 List.mem_cons_self
  · intro index member
    rw [Finset.mem_filter] at member ⊢
    exact ⟨member.1, fun seen => member.2 (List.mem_cons_of_mem _ seen)⟩

/-- With more steps than there are unseen places the bound is never met. -/
theorem collects_foldl (bound : Nat) (ids : List TypeId) (search : MethodSearch)
    (enough : table.unseen search < bound) :
    table.Collects ids search
      (ids.foldl (fun search id => table.collectInterface bound id search) search) := by
  -- The bound falls where an interface is entered, and so do the unseen places.
  induction bound generalizing ids search with
  | zero => exact absurd enough (Nat.not_lt_zero _)
  | succ bound ih =>
    induction ids generalizing search with
    | nil => exact .done search
    | cons id later listHypothesis =>
      rw [List.foldl_cons, collectInterface]
      split
      · next known => exact .known (List.contains_iff_mem.mp known) (listHypothesis _ enough)
      · next unknown =>
        have new : table.underlying id ∉ search.seen := fun seen =>
          unknown (List.contains_iff_mem.mpr seen)
        split
        · next type kind =>
          have inside : (table.underlying id).index < table.size :=
            index_lt_of_get (by simp [kind])
          have entered := unseen_enter inside new (type.methods.foldl addNew search.methods)
          have inner := ih type.embedded _ (Nat.lt_of_lt_of_le entered (Nat.le_of_lt_succ enough))
          have fewer : table.unseen _ ≤ table.unseen _ := unseen_mono inner.seen_subset
          exact .interface new kind inner
            (listHypothesis _ (Nat.lt_of_le_of_lt fewer (entered.trans enough)))
        · next other => exact .other other (listHypothesis _ enough)

variable (table) in
theorem collects_interface (id : TypeId) :
    table.Collects [id] ⟨[], []⟩ (table.collectInterface (table.size + 1) id ⟨[], []⟩) :=
  collects_foldl (table.size + 1) [id] ⟨[], []⟩ (Nat.lt_succ_of_le (table.unseen_le_size _))

/-! ### Flattened interfaces -/

variable (table)

theorem interfaceMethods_perm (id : TypeId) :
    (table.interfaceMethods id).Perm
      (table.collectInterface (table.size + 1) id ⟨[], []⟩).methods :=
  List.mergeSort_perm _ _

theorem interfaceMethods_distinct (id : TypeId) : Distinct (table.interfaceMethods id) := by
  unfold Distinct
  rw [((table.interfaceMethods_perm id).map Prod.fst).nodup_iff]
  exact (table.collects_interface id).distinct distinct_nil

theorem interfaceMethods_ascending (id : TypeId) :
    (table.interfaceMethods id).Pairwise fun first second => first.1 < second.1 := by
  have ordered : (table.interfaceMethods id).Pairwise fun first second =>
      decide (first.1 ≤ second.1) = true := by
    apply List.pairwise_mergeSort
    · intro first second third
      simp only [decide_eq_true_eq]
      exact le_trans
    · intro first second
      simp only [Bool.or_eq_true, decide_eq_true_eq]
      exact le_total _ _
  have distinct : (table.interfaceMethods id).Pairwise fun first second => first.1 ≠ second.1 :=
    List.pairwise_map.mp (table.interfaceMethods_distinct id)
  refine (ordered.and distinct).imp ?_
  rintro first second ⟨notAfter, different⟩
  exact lt_of_le_of_ne (of_decide_eq_true notAfter) different

variable {table}

theorem interfaceMethods_eq_of_ascending
    (arranged : methods.Perm (table.collectInterface (table.size + 1) id ⟨[], []⟩).methods)
    (ascending : methods.Pairwise fun first second => first.1 < second.1) :
    table.interfaceMethods id = methods := by
  refine List.Perm.eq_of_pairwise (fun _ _ _ _ less greater => absurd (less.trans greater) ?_)
    (table.interfaceMethods_ascending id) ascending
    ((table.interfaceMethods_perm id).trans arranged.symm)
  exact lt_irrefl _

theorem declared_of_mem_interfaceMethods (member : method ∈ table.interfaceMethods id) :
    ∃ interface, Relation.ReflTransGen table.Embeds (table.underlying id) interface ∧
      table.Declares interface method := by
  have collected := (table.interfaceMethods_perm id).mem_iff.mp member
  rcases (table.collects_interface id).sound method collected with none' | ⟨only, same, found⟩
  · exact absurd none' List.not_mem_nil
  · obtain rfl := List.mem_singleton.mp same
    exact found

theorem has_interfaceMethods_iff (id : TypeId) (name : String) :
    Has (table.interfaceMethods id) name ↔
      ∃ interface signature, Relation.ReflTransGen table.Embeds (table.underlying id) interface ∧
        table.Declares interface (name, signature) := by
  constructor
  · rintro ⟨signature, member⟩
    obtain ⟨interface, reaches, declares⟩ := declared_of_mem_interfaceMethods member
    exact ⟨interface, signature, reaches, declares⟩
  · rintro ⟨interface, signature, reaches, declares⟩
    have collects := table.collects_interface id
    have ⟨type, kind, _⟩ := declares
    have seen := collects.reached reaches kind
    obtain ⟨found, member⟩ :=
      ((collects.complete interface seen).resolve_left List.not_mem_nil).2 _ declares
    exact ⟨found, (table.interfaceMethods_perm id).mem_iff.mpr member⟩

/-- Steps by names and embeddings lead from a type to what is behind it. -/
theorem Settled.leads_underlying (settled : table.Settled) (id : TypeId) :
    Relation.ReflTransGen table.Leads id (table.underlying id) := by
  by_cases named : table.IsNamed id
  · obtain ⟨type, kind⟩ := named
    rw [settled.underlying_of_named kind]
    exact .single (.named kind)
  · rw [underlying_of_unnamed named]

/-- Where no named type stands for another, following names to their end leads to
the same interfaces. -/
theorem Settled.reaches_iff_leads (settled : table.Settled)
    (kind : table.get interface = .interface type) :
    Relation.ReflTransGen table.Embeds (table.underlying id) interface ↔
      Relation.ReflTransGen table.Leads id interface := by
  constructor
  · intro reaches
    clear kind
    induction reaches with
    | refl => exact settled.leads_underlying id
    | tail _ embeds leads =>
      obtain ⟨outer, _, outerKind, _, member⟩ := embeds
      obtain ⟨source, inEmbedded, rfl⟩ := List.mem_map.mp member
      exact (leads.tail (.embedded outerKind inEmbedded)).trans (settled.leads_underlying source)
  · intro leads
    induction leads using Relation.ReflTransGen.head_induction_on with
    | refl => rw [underlying_of_interface kind]
    | head step _ reaches =>
      cases step with
      | named isNamed =>
        rw [settled.underlying_of_named isNamed]
        rwa [underlying_of_unnamed (settled.unnamed _ _ isNamed)] at reaches
      | embedded outerKind inEmbedded =>
        obtain ⟨innerType, innerKind⟩ := interface_of_reaches reaches kind
        rw [underlying_of_interface outerKind]
        exact .head ⟨_, innerType, outerKind, innerKind, List.mem_map_of_mem inEmbedded⟩ reaches

/-- The methods of an interface are collected in finitely many steps, stand by
ascending name and have exactly the names that are declared by the interfaces the
type leads to.  In a table made by its operations names are followed to their
end. -/
theorem interfaceMethods_flatten (table : TypeTable) (id : TypeId) :
    (∃ search, table.Collects [id] ⟨[], []⟩ search ∧
      (table.interfaceMethods id).Perm search.methods) ∧
    ((table.interfaceMethods id).Pairwise fun first second => first.1 < second.1) ∧
    (∀ name, Has (table.interfaceMethods id) name ↔
      ∃ interface signature, Relation.ReflTransGen table.Embeds (table.underlying id) interface ∧
        table.Declares interface (name, signature)) ∧
    (table.Built → ∀ name, Has (table.interfaceMethods id) name ↔
      ∃ interface signature, Relation.ReflTransGen table.Leads id interface ∧
        table.Declares interface (name, signature)) := by
  refine ⟨⟨_, table.collects_interface id, table.interfaceMethods_perm id⟩,
    table.interfaceMethods_ascending id, has_interfaceMethods_iff id, fun built name => ?_⟩
  rw [has_interfaceMethods_iff]
  refine exists_congr fun interface => exists_congr fun signature =>
    and_congr_left fun ⟨type, kind, _⟩ => ?_
  exact built.settled.reaches_iff_leads kind

/-- Two named interfaces, `Reader` at 27 and `Closer` at 28, that embed each other,
and at 31 an interface that embeds both. -/
def circleTable : TypeTable :=
  let (signature, table) := initial.alloc (.func ⟨[], [], false⟩)
  let (reader, table) := table.newNamed "a" "Reader"
  let (closer, table) := table.newNamed "a" "Closer"
  let (reads, table) := table.alloc (.interface ⟨[("Read", signature)], [closer]⟩)
  let table := table.setUnderlying reader reads
  let (closes, table) :=
    table.alloc (.interface ⟨[("Read", signature), ("Close", signature)], [reader]⟩)
  let table := table.setUnderlying closer closes
  (table.alloc (.interface ⟨[], [closer, reader]⟩)).2

theorem circleTable_built : circleTable.Built := by
  have signature := Built.initial.alloc (.func ⟨[], [], false⟩) (by simp)
  have names := (signature.newNamed "a" "Reader").newNamed "a" "Closer"
  have reader := (names.alloc (.interface ⟨[("Read", ⟨26⟩)], [⟨28⟩]⟩) (by simp)).setUnderlying ⟨27⟩
    ⟨29⟩ (by decide)
  have closer := (reader.alloc (.interface ⟨[("Read", ⟨26⟩), ("Close", ⟨26⟩)], [⟨27⟩]⟩)
    (by simp)).setUnderlying ⟨28⟩ ⟨30⟩ (by decide)
  exact closer.alloc _ (by simp)

/-- The methods of both named interfaces, each name once. -/
theorem circle_flattened :
    circleTable.Built ∧
      circleTable.interfaceMethods ⟨31⟩ = [("Close", ⟨26⟩), ("Read", ⟨26⟩)] ∧
      ∃ interface signature, Relation.ReflTransGen circleTable.Leads ⟨31⟩ interface ∧
        circleTable.Declares interface ("Close", signature) := by
  have methods : circleTable.interfaceMethods ⟨31⟩ = [("Close", ⟨26⟩), ("Read", ⟨26⟩)] :=
    interfaceMethods_eq_of_ascending (.swap _ _ _) (by decide)
  obtain ⟨_, _, _, names⟩ := interfaceMethods_flatten circleTable ⟨31⟩
  refine ⟨circleTable_built, methods, (names circleTable_built "Close").mp ⟨⟨26⟩, ?_⟩⟩
  rw [methods]
  exact List.mem_cons_self

end Unclosed.TypeTable
