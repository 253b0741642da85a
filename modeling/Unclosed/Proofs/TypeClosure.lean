import Unclosed.Proofs.FlattenedInterfaces
import Unclosed.Typing.Rules

/-!
Sets of types that hold the parts of their members.  What the typing rules find
from types of such a set is in the set, and the steps of the type table that
start from it keep it closed.
-/

namespace Unclosed

variable {type elem id : TypeId} {name : String}

namespace TypeKind

/-- The types that a type is made of, the signatures of its methods included. -/
@[simp] def parts : TypeKind → List TypeId
  | invalid | basic _ => []
  | named type => type.underlying :: type.methods.map Method.signature
  | pointer elem | slice elem | array _ elem | chan _ elem => [elem]
  | map key value => [key, value]
  | struct fields => fields.map StructField.type
  | interface type => type.methods.map Prod.snd ++ type.embedded
  | func type => type.params ++ type.results
  | tuple elems => elems

def methods : TypeKind → List Method
  | named type => type.methods
  | _ => []

end TypeKind

def Selection.Within (seen : TypeId → Prop) (known : SymbolId → Prop) : Selection → Prop
  | field type _ => seen type
  | method symbol signature _ => known symbol ∧ seen signature
  | interfaceMethod _ signature => seen signature
  | qualified symbol => known symbol

namespace TypeTable

/-! ### Closed sets -/

theorem basic_index_lt (kind : BasicKind) : (basic kind).index < Universe.initialTypes.size := by
  cases kind <;> decide

/-- A set of types with the predeclared types and the parts of all its members;
it holds the pointer and the slice of each member that have been made. -/
structure Closed (table : TypeTable) (seen : TypeId → Prop) : Prop where
  parts : ∀ type, seen type → ∀ part ∈ (table.get type).parts, seen part
  predeclared : ∀ type : TypeId, type.index < Universe.initialTypes.size → seen type
  pointers : ∀ elem type, table.pointers.lookup elem = some type → seen elem → seen type
  slices : ∀ elem type, table.slices.lookup elem = some type → seen elem → seen type

namespace Closed

variable {table : TypeTable} {seen : TypeId → Prop} (closed : table.Closed seen) {type : TypeId}

include closed

/-! ### Queries -/

theorem invalid : seen TypeTable.invalid := closed.predeclared _ (by decide)

theorem basic (kind : BasicKind) : seen (TypeTable.basic kind) :=
  closed.predeclared _ (basic_index_lt kind)

theorem emptyTuple : seen TypeTable.emptyTuple := closed.predeclared _ (by decide)

theorem underlyingWithin (bound : Nat) (sees : seen type) :
    seen (table.underlyingWithin bound type) := by
  induction bound generalizing type with
  | zero => exact sees
  | succ bound ih =>
    unfold TypeTable.underlyingWithin
    split
    · next named kind =>
      split
      · exact sees
      · refine ih (closed.parts type sees _ ?_)
        simp [kind]
    · exact sees

theorem underlying (sees : seen type) : seen (table.underlying type) :=
  closed.underlyingWithin _ sees

theorem underlyingKind (sees : seen type) :
    ∀ part ∈ (table.underlyingKind type).parts, seen part :=
  closed.parts _ (closed.underlying sees)

theorem arrayElem? (found : table.arrayElem? type = some elem) (sees : seen type) : seen elem := by
  have parts := closed.underlyingKind sees
  unfold TypeTable.arrayElem? at found
  split at found
  · next kind =>
    cases found
    exact parts _ (by simp [kind])
  · cases found

theorem pointerElem? (found : table.pointerElem? type = some elem) (sees : seen type) :
    seen elem := by
  have parts := closed.underlyingKind sees
  unfold TypeTable.pointerElem? at found
  split at found
  · next kind =>
    cases found
    exact parts _ (by simp [kind])
  · cases found

theorem chanElem? (found : table.chanElem? type = some elem) (sees : seen type) : seen elem := by
  have parts := closed.underlyingKind sees
  unfold TypeTable.chanElem? at found
  split at found
  · next kind =>
    cases found
    exact parts _ (by simp [kind])
  · cases found

theorem mapKey? {key : TypeId} (found : table.mapKey? type = some key) (sees : seen type) :
    seen key := by
  have parts := closed.underlyingKind sees
  unfold TypeTable.mapKey? at found
  split at found
  · next kind =>
    cases found
    exact parts _ (by simp [kind])
  · cases found

theorem structFields? {fields : List StructField} (found : table.structFields? type = some fields)
    (sees : seen type) :
    ∀ field ∈ fields, seen field.type := by
  have parts := closed.underlyingKind sees
  unfold TypeTable.structFields? at found
  split at found
  · next kind =>
    cases found
    intro field member
    exact parts _ (by simpa [kind] using ⟨field, member, rfl⟩)
  · cases found

theorem func? {func : FuncType} (found : table.func? type = some func) (sees : seen type) :
    ∀ part ∈ func.params ++ func.results, seen part := by
  have parts := closed.underlyingKind sees
  unfold TypeTable.func? at found
  split at found
  · next kind =>
    cases found
    simpa [kind] using parts
  · cases found

section

variable (sees : seen type)
include sees

theorem indexResult : seen (table.indexResult type) := by
  have parts := closed.underlyingKind sees
  unfold TypeTable.indexResult
  split
  · next kind => exact parts _ (by simp [kind])
  · next kind => exact parts _ (by simp [kind])
  · next kind => exact parts _ (by simp [kind])
  · split
    · exact closed.basic _
    · exact closed.invalid
  · next elem kind =>
    have sees : seen elem := parts _ (by simp [kind])
    cases found : table.arrayElem? elem with
    | none => exact closed.invalid
    | some inner => exact closed.arrayElem? found sees
  · exact closed.invalid

theorem defaultType : seen (table.defaultType type) := by
  unfold TypeTable.defaultType
  split
  · split
    · exact closed.basic _
    · exact sees
  · exact sees

theorem dereferenced : seen (table.dereferenced type) := by
  unfold TypeTable.dereferenced
  split
  · next kind => exact closed.parts _ sees _ (by simp [kind])
  · exact sees

theorem rangeTypes : seen (table.rangeTypes type).1 ∧ seen (table.rangeTypes type).2 := by
  have parts := closed.underlyingKind sees
  unfold TypeTable.rangeTypes
  split
  · next kind => exact ⟨closed.basic _, parts _ (by simp [kind])⟩
  · next kind => exact ⟨closed.basic _, parts _ (by simp [kind])⟩
  · split
    · exact ⟨closed.basic _, closed.basic _⟩
    · exact ⟨closed.defaultType sees, closed.invalid⟩
  · next kind =>
    exact ⟨parts _ (by simp [kind]), parts _ (by simp [kind])⟩
  · next kind => exact ⟨parts _ (by simp [kind]), closed.invalid⟩
  · next pointee kind =>
    have sees : seen pointee := parts _ (by simp [kind])
    split
    · next found => exact ⟨closed.basic _, closed.arrayElem? found sees⟩
    · exact ⟨closed.invalid, closed.invalid⟩
  · exact ⟨closed.invalid, closed.invalid⟩

omit sees in
theorem binaryResult (op : BinaryOp) {left right : TypeId} (seesLeft : seen left)
    (seesRight : seen right) : seen (table.binaryResult op left right) := by
  unfold TypeTable.binaryResult
  split
  · exact closed.basic _
  · split
    · exact seesLeft
    · split
      · exact seesRight
      · exact seesLeft

omit sees in
theorem unaryResult (op : UnaryOp) (sees : seen type) : seen (table.unaryResult op type) := by
  unfold TypeTable.unaryResult
  split
  · cases found : table.chanElem? type with
    | none => exact closed.invalid
    | some elem => exact closed.chanElem? found sees
  · exact sees

theorem sliceResult_cases :
    (∃ result, seen result ∧ table.sliceResult type = (result, table)) ∨
      ∃ elem, seen elem ∧ table.sliceResult type = table.sliceOf elem := by
  have parts := closed.underlyingKind sees
  unfold TypeTable.sliceResult
  split
  · split
    · exact .inl ⟨_, closed.basic _, rfl⟩
    · exact .inl ⟨_, closed.invalid, rfl⟩
  · next kind => exact .inr ⟨_, parts _ (by simp [kind]), rfl⟩
  · next pointee kind =>
    have sees : seen pointee := parts _ (by simp [kind])
    split
    · next found => exact .inr ⟨_, closed.arrayElem? found sees, rfl⟩
    · exact .inl ⟨_, closed.invalid, rfl⟩
  · exact .inl ⟨_, sees, rfl⟩
  · exact .inl ⟨_, closed.invalid, rfl⟩

theorem callResult_cases :
    (∃ result, seen result ∧ table.callResult type = (result, table)) ∨
      ∃ results, (∀ result ∈ results, seen result) ∧
        table.callResult type = table.alloc (.tuple results) := by
  unfold TypeTable.callResult
  split
  · next func found =>
    have results : ∀ result ∈ func.results, seen result := fun result member =>
      closed.func? found sees result (List.mem_append_right _ member)
    split
    · next same => exact .inl ⟨_, results _ (by simp [same]), rfl⟩
    · unfold TypeTable.tuple
      split
      · exact .inl ⟨_, closed.emptyTuple, rfl⟩
      · exact .inr ⟨_, results, rfl⟩
  · exact .inl ⟨_, closed.invalid, rfl⟩

end

theorem argumentHints {func : FuncType} (sees : ∀ part ∈ func.params, seen part) (spread : Bool)
    (count : Nat) :
    ∀ hint ∈ table.argumentHints func spread count, ∀ type ∈ hint, seen type := by
  have last : ∀ type ∈ table.variadicElem? func, seen type := by
    intro type found
    unfold TypeTable.variadicElem? at found
    split at found
    · next param isLast =>
      split at found
      · next kind =>
        cases found
        refine closed.parts param (sees param (List.mem_of_getLast? isLast)) _ ?_
        simp [kind]
      · cases found
    · cases found
  intro hint member type found
  obtain ⟨index, _, rfl⟩ := List.mem_map.mp member
  split at found
  · exact last type found
  · exact sees type (List.mem_of_getElem? found)

/-! ### Methods and selectors -/

theorem reaches {type interface : TypeId} (sees : seen type)
    (reaches : Relation.ReflTransGen table.Embeds type interface) : seen interface := by
  induction reaches with
  | refl => exact sees
  | @tail outer _ _ embeds seesOuter =>
    obtain ⟨outerType, _, kind, _, member⟩ := embeds
    obtain ⟨source, inEmbedded, rfl⟩ := List.mem_map.mp member
    refine closed.underlying (closed.parts outer seesOuter source ?_)
    simp [kind, inEmbedded]

theorem interfaceMethods (sees : seen type) :
    ∀ method ∈ table.interfaceMethods type, seen method.2 := by
  intro method member
  obtain ⟨interface, reaches, own, kind, declared⟩ := declared_of_mem_interfaceMethods member
  refine closed.parts interface (closed.reaches (closed.underlying sees) reaches) method.2 ?_
  rw [kind, TypeKind.parts]
  exact List.mem_append_left _ (List.mem_map_of_mem declared)

theorem embedded (sees : seen type) :
    ∀ part ∈ (table.embeddedFields type).map fun field => table.dereferenced field.type,
      seen part := by
  intro part member
  obtain ⟨field, inFields, rfl⟩ := List.mem_map.mp member
  have member := (List.mem_filter.mp inFields).1
  cases fields : table.structFields? type with
  | none => simp [fields] at member
  | some list =>
    rw [fields] at member
    exact closed.dereferenced (closed.structFields? fields sees field member)

section Selectors

variable {known : SymbolId → Prop}
  (methods : ∀ type, seen type → ∀ method ∈ (table.get type).methods, known method.symbol)
  {selection : Selection}

omit methods in
theorem interfaceSelection? (found : table.interfaceSelection? type name = some selection)
    (sees : seen type) :
    selection.Within seen known := by
  obtain ⟨method, located, rfl⟩ := Option.map_eq_some_iff.mp found
  exact closed.interfaceMethods sees method (List.mem_of_find?_eq_some located)

include methods

theorem directSelection? (found : table.directSelection? type name = some selection)
    (sees : seen type) :
    selection.Within seen known := by
  have declared : ∀ selection, table.declaredMethod? type name = some selection →
      selection.Within seen known := by
    intro selection found
    unfold TypeTable.declaredMethod? at found
    split at found
    · next named kind =>
      obtain ⟨method, located, rfl⟩ := Option.map_eq_some_iff.mp found
      have member := List.mem_of_find?_eq_some located
      refine ⟨methods type sees method ?_, closed.parts type sees method.signature ?_⟩
      · simpa [kind, TypeKind.methods] using member
      · simpa [kind] using .inr ⟨method, member, rfl⟩
    · cases found
  unfold TypeTable.directSelection? at found
  split at found
  · next located =>
    cases found
    exact declared _ located
  · split at found
    · exact closed.interfaceSelection? found sees
    · obtain ⟨field, located, rfl⟩ := Option.map_eq_some_iff.mp found
      cases fields : table.structFields? type with
      | none => simp [fields] at located
      | some list =>
        rw [fields] at located
        exact closed.structFields? fields sees field (List.mem_of_find?_eq_some located)

theorem searchLevel (name : String) (level seenBefore next : List TypeId)
    (seesLevel : ∀ type ∈ level, seen type) (seesNext : ∀ type ∈ next, seen type) :
    match table.searchLevel name level seenBefore next with
    | .inl selection => selection.Within seen known
    | .inr (_, below) => ∀ type ∈ below, seen type := by
  induction level generalizing seenBefore next with
  | nil => exact seesNext
  | cons type later ih =>
    have seesLater : ∀ type ∈ later, seen type := fun type member =>
      seesLevel type (List.mem_cons_of_mem _ member)
    have sees : seen type := seesLevel type List.mem_cons_self
    unfold TypeTable.searchLevel
    by_cases visited : seenBefore.contains type = true
    · rw [if_pos visited]
      exact ih _ _ seesLater seesNext
    · rw [if_neg visited]
      cases found : table.directSelection? type name with
      | some selection => exact closed.directSelection? methods found sees
      | none =>
        refine ih _ _ seesLater fun part member => ?_
        rcases List.mem_append.mp member with member | member
        · exact seesNext part member
        · exact closed.embedded sees part member

theorem searchLevels (bound : Nat) (level seenBefore : List TypeId)
    (seesLevel : ∀ type ∈ level, seen type)
    (found : table.searchLevels name bound level seenBefore = some selection) :
    selection.Within seen known := by
  induction bound generalizing level seenBefore with
  | zero => cases found
  | succ bound ih =>
    have searched := closed.searchLevel methods name level seenBefore [] seesLevel (by simp)
    unfold TypeTable.searchLevels at found
    split at found
    · next located =>
      rw [located] at searched
      cases found
      exact searched
    · next located =>
      rw [located] at searched
      split at found
      · cases found
      · exact ih _ _ searched found

theorem select? (found : table.select? type name = some selection) (sees : seen type) :
    selection.Within seen known := by
  unfold TypeTable.select? at found
  split at found
  · exact closed.interfaceSelection? found sees
  · exact closed.searchLevels methods _ _ _ (by simpa using closed.dereferenced sees) found

end Selectors

/-! ### Steps -/

theorem alloc {kind : TypeKind} (parts : ∀ part ∈ kind.parts, seen part) :
    (table.alloc kind).2.Closed seen where
  parts := by
    intro type sees part
    rw [get_alloc]
    split
    · exact parts part
    · exact closed.parts type sees part
  predeclared := closed.predeclared
  pointers := closed.pointers
  slices := closed.slices

theorem pointerTo (sees : seen elem) (fresh : seen ⟨table.size⟩) :
    (table.pointerTo elem).2.Closed seen ∧ seen (table.pointerTo elem).1 := by
  unfold TypeTable.pointerTo
  split
  · next found => exact ⟨closed, closed.pointers _ _ found sees⟩
  · have allocated : (table.alloc (.pointer elem)).2.Closed seen :=
      closed.alloc (by simpa using sees)
    refine ⟨⟨allocated.parts, closed.predeclared, ?_, closed.slices⟩, fresh⟩
    intro other type found seesOther
    dsimp only [List.lookup] at found
    split at found
    · cases found
      exact fresh
    · exact closed.pointers _ _ found seesOther

theorem sliceOf (sees : seen elem) (fresh : seen ⟨table.size⟩) :
    (table.sliceOf elem).2.Closed seen ∧ seen (table.sliceOf elem).1 := by
  unfold TypeTable.sliceOf
  split
  · next found => exact ⟨closed, closed.slices _ _ found sees⟩
  · have allocated : (table.alloc (.slice elem)).2.Closed seen :=
      closed.alloc (by simpa using sees)
    refine ⟨⟨allocated.parts, closed.predeclared, closed.pointers, ?_⟩, fresh⟩
    intro other type found seesOther
    dsimp only [List.lookup] at found
    split at found
    · cases found
      exact fresh
    · exact closed.slices _ _ found seesOther

theorem modifyNamed {change : NamedType → NamedType}
    (parts : ∀ type, seen id → table.get id = .named type →
      ∀ part ∈ (TypeKind.named (change type)).parts, seen part) :
    (table.modifyNamed id change).Closed seen where
  parts := by
    intro type sees part
    rw [get_modifyNamed]
    have kept := closed.parts type sees part
    split
    · next named kind =>
      split
      · next same => exact parts named (same ▸ sees) (same ▸ kind) part
      · rw [kind] at kept
        exact kept
    · exact kept
  predeclared := closed.predeclared
  pointers := by
    rw [modifyNamed_pointers]
    exact closed.pointers
  slices := by
    rw [modifyNamed_slices]
    exact closed.slices

theorem setUnderlying (sees : seen type) : (table.setUnderlying id type).Closed seen := by
  refine closed.modifyNamed fun named seesNamed kind part member => ?_
  have kept := closed.parts id seesNamed part
  simp only [kind, TypeKind.parts, List.mem_cons] at member kept
  rcases member with rfl | member
  · exact closed.underlying sees
  · exact kept (.inr member)

theorem addMethod {method : Method} (sees : seen method.signature) :
    (table.addMethod id method).Closed seen := by
  refine closed.modifyNamed fun named seesNamed kind part member => ?_
  have kept := closed.parts id seesNamed part
  simp only [kind, TypeKind.parts, List.map_append, List.mem_cons, List.mem_append] at member kept
  rcases member with rfl | member | member
  · exact kept (.inl rfl)
  · exact kept (.inr member)
  · simp only [List.map_cons, List.map_nil, List.mem_singleton] at member
    exact member ▸ sees

end Closed

end TypeTable

end Unclosed
