import Unclosed.Proofs.IdenticalTypes
import Unclosed.Proofs.SelectedMethods
import Unclosed.Proofs.TypeClosure

/-!
Which types implement an interface.  An interface implements those whose methods
it has, and what implements it implements them too.  A pointer has a method of
every name that its element has, but it takes the first one where the element
takes the first one that applies to it.
-/

namespace Unclosed.TypeTable

variable {table : TypeTable} (holder : Holder)

/-! ### Interfaces among each other -/

theorem implements_iff (type interface : TypeId) :
    table.implements type interface = true ↔
      table.isInvalid type = false ∧ table.isInterface interface = true ∧
      ∀ method ∈ table.interfaceMethods interface, ∃ signature,
        (method.1, signature) ∈ table.methodSet type ∧
          table.identical signature method.2 = true := by
  unfold implements
  cases table.isInvalid type <;> cases table.isInterface interface <;> simp

theorem isInvalid_of_isInterface {id : TypeId} (interface : table.isInterface id = true) :
    table.isInvalid id = false := by
  unfold isInterface underlyingKind underlying embeddingBound underlyingWithin at interface
  unfold isInvalid
  cases kind : table.get id with
  | invalid => simp [kind] at interface
  | _ => rfl

theorem methodSet_of_interface {id : TypeId} (interface : table.isInterface id = true) :
    table.methodSet id = table.interfaceMethods id := by
  unfold methodSet
  rw [if_pos interface]

/-- Every interface implements itself, and what implements an interface without
invalid types in its signatures implements the interfaces that it implements. -/
theorem implements_preorder (table : TypeTable) :
    (∀ interface, table.isInterface interface = true →
      table.implements interface interface = true) ∧
    ∀ type middle interface, (∀ method ∈ table.interfaceMethods middle, table.Whole method.2) →
      table.implements type middle = true → table.implements middle interface = true →
      table.implements type interface = true := by
  constructor
  · intro interface isInterface
    rw [implements_iff, methodSet_of_interface isInterface]
    refine ⟨isInvalid_of_isInterface isInterface, isInterface, fun method member => ?_⟩
    exact ⟨method.2, member, identicalWithin_refl nestingBound method.2⟩
  · intro type middle interface whole implements implementsNext
    rw [implements_iff] at implements implementsNext ⊢
    obtain ⟨valid, isMiddle, has⟩ := implements
    obtain ⟨_, isInterface, hasNext⟩ := implementsNext
    refine ⟨valid, isInterface, fun method required => ?_⟩
    rw [methodSet_of_interface isMiddle] at hasNext
    obtain ⟨between, inMiddle, sameNext⟩ := hasNext method required
    obtain ⟨signature, available, same⟩ := has (method.1, between) inMiddle
    exact ⟨signature, available,
      identicalWithin_trans nestingBound (whole _ inMiddle) same sameNext⟩

/-- `Deep` at 31 embeds `Inner`, which has a method `Close`.  `Layer` at 34 embeds
`Own`, which has a method of that name and another signature for pointers, beside
`Deep`.  The interface at 35 has the method of `Inner`, and the one at 36 embeds
it.  The pointers to `Deep` and `Layer` are at 37 and 38. -/
def layerTable : TypeTable :=
  let table := (initial.alloc (.func ⟨[], [], false⟩)).2
  let table := (table.alloc (.func ⟨[], [basic .int], false⟩)).2
  let table := (table.alloc (.struct [])).2
  let table := (table.newNamed "a" "Inner").2.setUnderlying ⟨29⟩ ⟨28⟩
  let table := table.addMethod ⟨29⟩ ⟨"Close", ⟨26⟩, false, ⟨0⟩⟩
  let table := (table.alloc (.struct [⟨"Inner", ⟨29⟩, true, true, none⟩])).2
  let table := (table.newNamed "a" "Deep").2.setUnderlying ⟨31⟩ ⟨30⟩
  let table := (table.newNamed "a" "Own").2.setUnderlying ⟨32⟩ ⟨28⟩
  let table := table.addMethod ⟨32⟩ ⟨"Close", ⟨27⟩, true, ⟨1⟩⟩
  let table := (table.alloc (.struct
    [⟨"Own", ⟨32⟩, true, true, none⟩, ⟨"Deep", ⟨31⟩, true, true, none⟩])).2
  let table := (table.newNamed "a" "Layer").2.setUnderlying ⟨34⟩ ⟨33⟩
  let table := (table.alloc (.interface ⟨[("Close", ⟨26⟩)], []⟩)).2
  let table := (table.alloc (.interface ⟨[], [⟨35⟩]⟩)).2
  ((table.pointerTo ⟨31⟩).2.pointerTo ⟨34⟩).2

theorem layerTable_built : layerTable.Built := by
  have signatures := (Built.initial.alloc (.func ⟨[], [], false⟩) (by simp)).alloc
    (.func ⟨[], [basic .int], false⟩) (by simp)
  have inner := (((signatures.alloc (.struct []) (by simp)).newNamed "a" "Inner").setUnderlying
    ⟨29⟩ ⟨28⟩ (by decide)).addMethod ⟨29⟩ ⟨"Close", ⟨26⟩, false, ⟨0⟩⟩
  have deep := ((inner.alloc (.struct [⟨"Inner", ⟨29⟩, true, true, none⟩]) (by simp)).newNamed "a"
    "Deep").setUnderlying ⟨31⟩ ⟨30⟩ (by decide)
  have own := ((deep.newNamed "a" "Own").setUnderlying ⟨32⟩ ⟨28⟩ (by decide)).addMethod ⟨32⟩
    ⟨"Close", ⟨27⟩, true, ⟨1⟩⟩
  have layer := ((own.alloc (.struct [⟨"Own", ⟨32⟩, true, true, none⟩,
    ⟨"Deep", ⟨31⟩, true, true, none⟩]) (by simp)).newNamed "a" "Layer").setUnderlying ⟨34⟩ ⟨33⟩
    (by decide)
  exact (((layer.alloc _ (by simp)).alloc _ (by simp)).pointerTo ⟨31⟩).pointerTo ⟨34⟩

theorem layerTable_methods : layerTable.interfaceMethods ⟨35⟩ = [("Close", ⟨26⟩)] :=
  interfaceMethods_eq_of_ascending (.refl _) (List.pairwise_singleton _ _)

theorem deep_implements : layerTable.implements ⟨31⟩ ⟨35⟩ = true := by
  unfold implements
  rw [layerTable_methods]
  rfl

/-- `Deep` implements the embedding interface by way of the embedded one. -/
theorem deep_implements_both :
    (∀ method ∈ layerTable.interfaceMethods ⟨35⟩, layerTable.Whole method.2) ∧
      layerTable.implements ⟨31⟩ ⟨35⟩ = true ∧ layerTable.implements ⟨35⟩ ⟨36⟩ = true ∧
      layerTable.implements ⟨31⟩ ⟨36⟩ = true ∧ layerTable.implements ⟨36⟩ ⟨36⟩ = true := by
  have signature : layerTable.get ⟨26⟩ = .func ⟨[], [], false⟩ := rfl
  have whole : layerTable.Whole ⟨26⟩ := by
    refine whole_of_closed (List.forall_mem_singleton.mpr (by simp [signature])) ?_
      (List.mem_singleton_self _)
    intro id member part isPart
    obtain rfl := List.mem_singleton.mp member
    have inside := isPart.mem_components (by simp [signature])
    rw [signature] at inside
    cases inside
  have allWhole : ∀ method ∈ layerTable.interfaceMethods ⟨35⟩, layerTable.Whole method.2 := by
    rw [layerTable_methods]
    exact List.forall_mem_singleton.mpr whole
  have embedding : layerTable.interfaceMethods ⟨36⟩ = [("Close", ⟨26⟩)] :=
    interfaceMethods_eq_of_ascending (.refl _) (List.pairwise_singleton _ _)
  have second : layerTable.implements ⟨35⟩ ⟨36⟩ = true := by
    unfold implements
    rw [methodSet_of_interface rfl, layerTable_methods, embedding]
    rfl
  obtain ⟨itself, joined⟩ := implements_preorder layerTable
  exact ⟨allWhole, deep_implements, second, joined _ _ _ allWhole deep_implements second,
    itself _ rfl⟩

/-! ### Pointers and their elements -/

def Holder.byPointer : Holder := ⟨holder.type, true⟩

theorem embeddedHolder_byPointer (field : StructField) :
    table.embeddedHolder holder.byPointer field =
      (table.embeddedHolder holder field).byPointer := by
  unfold embeddedHolder
  cases table.get field.type <;> rfl

theorem below_byPointer :
    table.below holder.byPointer = (table.below holder).map Holder.byPointer := by
  unfold below
  rw [List.map_map]
  exact List.map_congr_left fun field _ => embeddedHolder_byPointer holder field

theorem flatMap_below_byPointer (level : List Holder) :
    (level.map Holder.byPointer).flatMap table.below =
      (level.flatMap table.below).map Holder.byPointer := by
  rw [List.flatMap_map, List.map_flatMap]
  exact List.flatMap_congr fun holder _ => below_byPointer holder

theorem fresh_byPointer (seen : List TypeId) (level : List Holder) :
    fresh seen (level.map Holder.byPointer) = (fresh seen level).map Holder.byPointer := by
  induction level generalizing seen with
  | nil => rfl
  | cons holder later ih =>
    rw [List.map_cons, fresh_cons, fresh_cons]
    have sameType : holder.byPointer.type = holder.type := rfl
    rw [sameType]
    by_cases known : seen.contains holder.type = true
    · rw [if_pos known, if_pos known]
      exact ih seen
    · rw [if_neg known, if_neg known, List.map_cons, ih]

/-- By way of a pointer the search looks into the same types in the same order. -/
theorem layers_byPointer (bound : Nat) (seen : List TypeId) (level : List Holder) :
    layers table.below bound seen (level.map Holder.byPointer) =
      (layers table.below bound seen level).map (List.map Holder.byPointer) := by
  induction bound generalizing seen level with
  | zero => rfl
  | succ bound ih =>
    have types : ((fresh seen level).map Holder.byPointer).map Holder.type =
        (fresh seen level).map Holder.type := by
      rw [List.map_map]
      rfl
    rw [layers, layers, List.map_cons, fresh_byPointer, types, flatMap_below_byPointer, ih]

theorem promoted_byPointer (holders : List Holder) :
    table.promoted (holders.map Holder.byPointer) = table.promoted holders := by
  unfold promoted
  rw [List.filter_map, List.flatMap_map]
  rfl

/-- A method that the search for the methods of a type comes across. -/
structure Offer where
  name : String
  signature : TypeId
  /-- The method is of the type; one for pointers is not where it is declared on
  a type that is held by value. -/
  applies : Bool

namespace Offer

def entry (offer : Offer) : String × TypeId := (offer.name, offer.signature)

theorem mem_foldl_addNew (offers : List Offer) (name : String) (signature : TypeId) :
    (name, signature) ∈ (offers.map entry).foldl addNew [] ↔
      ∃ offer, offers.find? (·.name == name) = some offer ∧ offer.signature = signature := by
  rw [(distinct_nil.foldl_addNew _).mem_iff_find?, find?_foldl_addNew, List.nil_append,
    List.find?_map, Option.map_eq_some_iff]
  refine exists_congr fun offer => and_congr_right fun found => ?_
  have same : offer.name = name := by simpa [entry] using List.find?_some found
  rw [entry, same, Prod.mk.injEq, and_iff_right rfl]

/-- Before the first offer of a name that applies there may be one that does not. -/
theorem first_of_applying {offers : List Offer} {name : String} {offer : Offer}
    (found : (offers.filter applies).find? (·.name == name) = some offer) :
    ∃ first, offers.find? (·.name == name) = some first ∧
      (first = offer ∨ first.applies = false) := by
  cases foundFirst : offers.find? (·.name == name) with
  | none =>
    have inOffers := (List.mem_filter.mp (List.mem_of_find?_eq_some found)).1
    exact absurd (List.find?_some found) (List.find?_eq_none.mp foundFirst offer inOffers)
  | some first =>
    refine ⟨first, rfl, ?_⟩
    cases isApplying : first.applies with
    | false => exact .inr rfl
    | true =>
      have same := find?_filter_of_first foundFirst isApplying
      exact .inl (Option.some.inj (same.symm.trans found))

end Offer

variable (table)

/-- The methods that are met where a type is looked into, first its own and then
those of the interfaces embedded in it. -/
def offers : List Offer :=
  ((table.get holder.type).methods.map fun method =>
    ⟨method.name, method.signature, holder.addressable || !method.pointerReceiver⟩) ++
  (table.promoted (table.below holder)).map fun method => ⟨method.1, method.2, true⟩

def offered (id : TypeId) : List Offer :=
  ((table.depths id).flatten.filter table.isConcrete).flatMap table.offers

variable {table}

theorem ownMethods_eq :
    table.ownMethods holder =
      ((table.get holder.type).methods.filter fun method =>
        holder.addressable || !method.pointerReceiver).map
          fun method => (method.name, method.signature) := by
  unfold ownMethods
  cases table.get holder.type <;> rfl

theorem sources_eq_offers :
    table.sources holder = ((table.offers holder).filter Offer.applies).map Offer.entry := by
  unfold sources offers
  rw [ownMethods_eq, List.filter_append, List.map_append, List.filter_map, List.filter_map,
    List.map_map, List.map_map]
  have all : (table.promoted (table.below holder)).filter
      (Offer.applies ∘ fun method => ⟨method.1, method.2, true⟩) =
        table.promoted (table.below holder) := by
    rw [List.filter_eq_self]
    exact fun _ _ => rfl
  rw [all]
  exact congrArg _ (List.map_id _).symm

theorem sources_byPointer :
    table.sources holder.byPointer = (table.offers holder).map Offer.entry := by
  have all : (table.get holder.type).methods.filter (fun method =>
      holder.byPointer.addressable || !method.pointerReceiver) =
        (table.get holder.type).methods := by
    rw [List.filter_eq_self]
    exact fun _ _ => rfl
  unfold sources offers
  rw [ownMethods_eq, below_byPointer, promoted_byPointer, List.map_append, List.map_map,
    List.map_map]
  have sameType : holder.byPointer.type = holder.type := rfl
  rw [sameType, all]
  exact congrArg _ (List.map_id _).symm

theorem base_of_plain {id : TypeId} (plain : ∀ elem, table.get id ≠ .pointer elem) :
    table.base id = ⟨id, false⟩ := by
  unfold base
  cases kind : table.get id with
  | pointer elem => exact absurd kind (plain elem)
  | _ => rfl

section Element

variable {element pointer : TypeId} (plain : ∀ inner, table.get element ≠ .pointer inner)
  (concrete : table.isInterface element = false) (isPointer : table.get pointer = .pointer element)

include plain concrete

theorem methodSet_element :
    table.methodSet element =
      (((table.offered element).filter Offer.applies).map Offer.entry).foldl addNew [] := by
  have start : table.base element = ⟨element, false⟩ := base_of_plain plain
  rw [methodSet_eq table concrete (by rw [start]; exact concrete)]
  unfold candidates offered depths
  rw [List.filter_flatMap, List.map_flatMap]
  exact congrArg _ (List.flatMap_congr fun holder _ => sources_eq_offers holder)

theorem mem_methodSet_element (name : String) (signature : TypeId) :
    (name, signature) ∈ table.methodSet element ↔
      ∃ offer, ((table.offered element).filter Offer.applies).find? (·.name == name) = some offer ∧
        offer.signature = signature := by
  rw [methodSet_element plain concrete]
  exact Offer.mem_foldl_addNew _ name signature

include isPointer

/-- A pointer takes the first method of each name. -/
theorem methodSet_pointer :
    table.methodSet pointer = ((table.offered element).map Offer.entry).foldl addNew [] := by
  have start : table.base pointer = (table.base element).byPointer := by
    rw [base_of_plain plain]
    unfold base
    rw [isPointer]
    rfl
  have notInterface : table.isInterface pointer = false := by
    have behind : table.underlying pointer = pointer := by
      apply underlying_of_unnamed
      rintro ⟨type, named⟩
      cases isPointer.symm.trans named
    unfold isInterface underlyingKind
    rw [behind, isPointer]
  have depths : layers table.below embeddingBound [] [table.base pointer] =
      (table.depths element).map (List.map Holder.byPointer) := by
    rw [start]
    exact layers_byPointer embeddingBound [] [table.base element]
  rw [methodSet_eq table notInterface (by rw [start, base_of_plain plain]; exact concrete)]
  unfold candidates offered
  rw [depths, ← List.map_flatten, List.filter_map, List.flatMap_map, List.map_flatMap]
  exact congrArg _ (List.flatMap_congr fun holder _ => sources_byPointer holder)

theorem mem_methodSet_pointer (name : String) (signature : TypeId) :
    (name, signature) ∈ table.methodSet pointer ↔
      ∃ offer, (table.offered element).find? (·.name == name) = some offer ∧
        offer.signature = signature := by
  rw [methodSet_pointer plain concrete isPointer]
  exact Offer.mem_foldl_addNew _ name signature

end Element

/-- The pointer to a type has a method of every name that the type has.  Where the
type implements an interface, the pointer implements it exactly if each method
for pointers that the type passes over, because it comes first and does not apply
to a value, has the signature that the interface asks for. -/
theorem pointer_implements_iff {element pointer : TypeId}
    (plain : ∀ inner, table.get element ≠ .pointer inner)
    (concrete : table.isInterface element = false)
    (isPointer : table.get pointer = .pointer element) :
    (∀ name, Has (table.methodSet element) name → Has (table.methodSet pointer) name) ∧
    ∀ interface, table.implements element interface = true →
      (table.implements pointer interface = true ↔
        ∀ method ∈ table.interfaceMethods interface, ∀ offer,
          (table.offered element).find? (·.name == method.1) = some offer →
          offer.applies = false → table.identical offer.signature method.2 = true) := by
  have inElement := mem_methodSet_element plain concrete
  have inPointer := mem_methodSet_pointer plain concrete isPointer
  constructor
  · rintro name ⟨signature, member⟩
    obtain ⟨offer, found, _⟩ := (inElement name signature).mp member
    obtain ⟨first, foundFirst, _⟩ := Offer.first_of_applying found
    exact ⟨first.signature, (inPointer _ _).mpr ⟨first, foundFirst, rfl⟩⟩
  · intro interface implements
    obtain ⟨_, isInterface, has⟩ := (implements_iff element interface).mp implements
    constructor
    · intro byPointer method required offer found _
      obtain ⟨_, _, hasPointer⟩ := (implements_iff pointer interface).mp byPointer
      obtain ⟨signature, member, same⟩ := hasPointer method required
      obtain ⟨other, foundOther, rfl⟩ := (inPointer _ _).mp member
      rw [found] at foundOther
      cases foundOther
      exact same
    · intro passed
      have valid : table.isInvalid pointer = false := by
        unfold isInvalid
        rw [isPointer]
      refine (implements_iff pointer interface).mpr ⟨valid, isInterface, fun method required => ?_⟩
      obtain ⟨signature, member, same⟩ := has method required
      obtain ⟨offer, found, rfl⟩ := (inElement _ _).mp member
      obtain ⟨first, foundFirst, which⟩ := Offer.first_of_applying found
      refine ⟨first.signature, (inPointer _ _).mpr ⟨first, foundFirst, rfl⟩, ?_⟩
      rcases which with rfl | isPassed
      · exact same
      · exact passed method required first foundFirst isPassed

/-- The pointer to `Deep` implements the interface as `Deep` does. -/
theorem deep_pointer_implements :
    layerTable.get ⟨37⟩ = .pointer ⟨31⟩ ∧ layerTable.implements ⟨31⟩ ⟨35⟩ = true ∧
      layerTable.implements ⟨37⟩ ⟨35⟩ = true := by
  have named : layerTable.get ⟨31⟩ = .named ⟨"a", "Deep", ⟨30⟩, []⟩ := rfl
  have plain : ∀ inner, layerTable.get ⟨31⟩ ≠ .pointer inner := by
    intro inner kind
    cases named.symm.trans kind
  have isPointer : layerTable.get ⟨37⟩ = .pointer ⟨31⟩ := rfl
  have offered : layerTable.offered ⟨31⟩ = [⟨"Close", ⟨26⟩, true⟩] := rfl
  obtain ⟨_, exactly⟩ := pointer_implements_iff plain rfl isPointer
  refine ⟨isPointer, deep_implements, (exactly ⟨35⟩ deep_implements).mpr ?_⟩
  intro method _ offer found passed
  have member := List.mem_of_find?_eq_some found
  rw [offered, List.mem_singleton] at member
  rw [member] at passed
  cases passed

/-- `Layer` passes over the method of `Own` and takes the one of `Inner`; the
pointer to it takes the method of `Own`. -/
theorem layer_pointer_fails :
    layerTable.Built ∧ (∀ inner, layerTable.get ⟨34⟩ ≠ .pointer inner) ∧
      layerTable.isInterface ⟨34⟩ = false ∧ layerTable.isInterface ⟨35⟩ = true ∧
      layerTable.get ⟨38⟩ = .pointer ⟨34⟩ ∧
      layerTable.implements ⟨34⟩ ⟨35⟩ = true ∧ layerTable.implements ⟨38⟩ ⟨35⟩ = false := by
  have named : layerTable.get ⟨34⟩ = .named ⟨"a", "Layer", ⟨33⟩, []⟩ := rfl
  refine ⟨layerTable_built, fun inner kind => ?_, rfl, rfl, rfl, ?_, ?_⟩
  · cases named.symm.trans kind
  · unfold implements
    rw [layerTable_methods]
    rfl
  · unfold implements
    rw [layerTable_methods]
    rfl

end Unclosed.TypeTable
