import Unclosed.Types.Table

/-!
Tables made by the operations of the type table.  Each operation adds types or
changes a named type, and a named type never stands on another one, so that the
type behind a name is found in one step.
-/

namespace Unclosed.TypeTable

variable {id : TypeId} {type : NamedType} (table : TypeTable)

/-! ### Places of the table -/

theorem get_alloc (kind : TypeKind) (id : TypeId) :
    (table.alloc kind).2.get id = if id.index = table.size then kind else table.get id := by
  by_cases last : id.index = table.kinds.size <;> simp [alloc, get, size, Array.getElem?_push, last]

theorem alloc_size (kind : TypeKind) : (table.alloc kind).2.size = table.size + 1 := by
  simp [alloc, size]

theorem pointerTo_cases (elem : TypeId) :
    (table.pointerTo elem).2 = table ∨
      (table.pointerTo elem).2.kinds = (table.alloc (.pointer elem)).2.kinds := by
  unfold pointerTo
  split
  · exact .inl rfl
  · exact .inr rfl

theorem sliceOf_cases (elem : TypeId) :
    (table.sliceOf elem).2 = table ∨
      (table.sliceOf elem).2.kinds = (table.alloc (.slice elem)).2.kinds := by
  unfold sliceOf
  split
  · exact .inl rfl
  · exact .inr rfl

theorem tuple_cases (elems : List TypeId) :
    (table.tuple elems).2 = table ∨ (table.tuple elems).2 = (table.alloc (.tuple elems)).2 := by
  unfold tuple
  split
  · exact .inl rfl
  · exact .inr rfl

theorem callResult_table (id : TypeId) :
    (table.callResult id).2 = table ∨ ∃ elems, (table.callResult id).2 = (table.tuple elems).2 := by
  unfold callResult
  split
  · split
    · exact .inl rfl
    · exact .inr ⟨_, rfl⟩
  · exact .inl rfl

theorem index_lt_of_get {table : TypeTable} (valid : table.get id ≠ .invalid) :
    id.index < table.size := by
  apply Nat.lt_of_not_le
  intro outside
  apply valid
  simp [get, Array.getElem?_eq_none outside]

theorem get_modifyNamed (changed : TypeId) (change : NamedType → NamedType) (id : TypeId) :
    (table.modifyNamed changed change).get id =
      match table.get id with
      | .named type => .named (if id = changed then change type else type)
      | kind => kind := by
  by_cases same : id = changed
  · subst same
    unfold modifyNamed
    cases kind : table.get id with
    | named type =>
      have inside : id.index < table.kinds.size := index_lt_of_get (by simp [kind])
      simp [get, inside]
    | _ => simpa using kind
  · have apart : changed.index ≠ id.index := fun equal =>
      same (by cases id; cases changed; cases equal; rfl)
    have kept : (table.modifyNamed changed change).get id = table.get id := by
      unfold modifyNamed
      split
      · simp [get, apart]
      · rfl
    rw [kept]
    cases table.get id <;> simp [same]

theorem modifyNamed_size (id : TypeId) (change : NamedType → NamedType) :
    (table.modifyNamed id change).size = table.size := by
  unfold modifyNamed size
  split <;> simp

theorem modifyNamed_pointers (id : TypeId) (change : NamedType → NamedType) :
    (table.modifyNamed id change).pointers = table.pointers := by
  unfold modifyNamed
  split <;> rfl

theorem modifyNamed_slices (id : TypeId) (change : NamedType → NamedType) :
    (table.modifyNamed id change).slices = table.slices := by
  unfold modifyNamed
  split <;> rfl

/-! ### Operations -/

def IsNamed (id : TypeId) : Prop := ∃ type, table.get id = .named type

theorem underlyingWithin_of_unnamed {table : TypeTable} (unnamed : ¬ table.IsNamed id)
    (bound : Nat) : table.underlyingWithin bound id = id := by
  cases bound with
  | zero => rfl
  | succ bound =>
    rw [underlyingWithin]
    split
    · next type kind => exact absurd ⟨type, kind⟩ unnamed
    · rfl

theorem underlying_of_unnamed {table : TypeTable} (unnamed : ¬ table.IsNamed id) :
    table.underlying id = id :=
  underlyingWithin_of_unnamed unnamed embeddingBound

theorem underlying_of_interface {table : TypeTable} {type : InterfaceType}
    (kind : table.get id = .interface type) : table.underlying id = id := by
  apply underlying_of_unnamed
  rintro ⟨named, isNamed⟩
  rw [kind] at isNamed
  cases isNamed

/-- A table made by its operations.  Named types come from `newNamed` alone, and
only a type of the table is given to a named type as what it stands for. -/
inductive Built : TypeTable → Prop
  | initial : Built initial
  | alloc {table : TypeTable} (built : Built table) (kind : TypeKind)
      (unnamed : ∀ type, kind ≠ .named type) : Built (table.alloc kind).2
  | newNamed {table : TypeTable} (built : Built table) (package name : String) :
      Built (table.newNamed package name).2
  | pointerTo {table : TypeTable} (built : Built table) (elem : TypeId) :
      Built (table.pointerTo elem).2
  | sliceOf {table : TypeTable} (built : Built table) (elem : TypeId) :
      Built (table.sliceOf elem).2
  | tuple {table : TypeTable} (built : Built table) (elems : List TypeId) :
      Built (table.tuple elems).2
  | callResult {table : TypeTable} (built : Built table) (id : TypeId) :
      Built (table.callResult id).2
  | setUnderlying {table : TypeTable} (built : Built table) (id type : TypeId)
      (inside : type.index < table.size) : Built (table.setUnderlying id type)
  | addMethod {table : TypeTable} (built : Built table) (id : TypeId) (method : Method) :
      Built (table.addMethod id method)

/-- What a named type stands for is in the table and not a named type. -/
structure Settled (table : TypeTable) : Prop where
  start : table.get invalid = .invalid
  nonempty : 0 < table.size
  inside : ∀ id type, table.get id = .named type → type.underlying.index < table.size
  unnamed : ∀ id type, table.get id = .named type → ¬ table.IsNamed type.underlying

namespace Settled

variable {table : TypeTable} (settled : table.Settled)

include settled

theorem underlyingWithin_of_named (kind : table.get id = .named type) (bound : Nat) :
    table.underlyingWithin (bound + 1) id = type.underlying := by
  have unnamed := settled.unnamed id type kind
  have other : type.underlying ≠ id := fun same => unnamed ⟨type, same ▸ kind⟩
  rw [underlyingWithin, kind]
  dsimp only
  rw [if_neg other, underlyingWithin_of_unnamed unnamed]

theorem underlying_of_named (kind : table.get id = .named type) :
    table.underlying id = type.underlying :=
  settled.underlyingWithin_of_named kind 7

theorem underlying_unnamed (id : TypeId) : ¬ table.IsNamed (table.underlying id) := by
  by_cases named : table.IsNamed id
  · obtain ⟨type, kind⟩ := named
    rw [settled.underlying_of_named kind]
    exact settled.unnamed id type kind
  · rw [underlying_of_unnamed named]
    exact named

theorem underlying_inside (inside : id.index < table.size) :
    (table.underlying id).index < table.size := by
  by_cases named : table.IsNamed id
  · obtain ⟨type, kind⟩ := named
    rw [settled.underlying_of_named kind]
    exact settled.inside id type kind
  · rwa [underlying_of_unnamed named]

/-! ### What an operation keeps -/

omit settled in
theorem of_kinds {other : TypeTable} (same : other.kinds = table.kinds)
    (settled : table.Settled) : other.Settled := by
  have get_eq : ∀ id, other.get id = table.get id := fun id => by rw [get, get, same]
  have size_eq : other.size = table.size := by rw [size, size, same]
  constructor
  · rw [get_eq]
    exact settled.start
  · rw [size_eq]
    exact settled.nonempty
  · intro id type kind
    rw [get_eq] at kind
    rw [size_eq]
    exact settled.inside id type kind
  · intro id type kind
    rw [get_eq] at kind
    unfold IsNamed
    rw [get_eq]
    exact settled.unnamed id type kind

theorem alloc {kind : TypeKind} (fresh : ∀ type, kind = .named type → type.underlying = invalid) :
    (table.alloc kind).2.Settled := by
  have nonempty := settled.nonempty
  have get_inside : ∀ id : TypeId, id.index < table.size →
      (table.alloc kind).2.get id = table.get id := by
    intro id inside
    rw [get_alloc, if_neg (Nat.ne_of_lt inside)]
  -- A new named type stands for the invalid type, and the others have not changed.
  have stands : ∀ id type, (table.alloc kind).2.get id = .named type →
      type.underlying.index < table.size ∧ ¬ table.IsNamed type.underlying := by
    intro id type named
    rw [get_alloc] at named
    split at named
    · rw [fresh type named]
      refine ⟨nonempty, ?_⟩
      rintro ⟨inner, isNamed⟩
      rw [settled.start] at isNamed
      cases isNamed
    · exact ⟨settled.inside id type named, settled.unnamed id type named⟩
  constructor
  · rw [get_inside invalid nonempty]
    exact settled.start
  · rw [alloc_size]
    exact Nat.succ_pos _
  · intro id type named
    rw [alloc_size]
    exact Nat.lt_succ_of_lt (stands id type named).1
  · intro id type named
    unfold IsNamed
    rw [get_inside _ (stands id type named).1]
    exact (stands id type named).2

theorem modifyNamed {change : NamedType → NamedType}
    (stands : ∀ type, table.get id = .named type →
      (change type).underlying.index < table.size ∧ ¬ table.IsNamed (change type).underlying) :
    (table.modifyNamed id change).Settled := by
  have isNamed_iff : ∀ other,
      (table.modifyNamed id change).IsNamed other ↔ table.IsNamed other := by
    intro other
    unfold IsNamed
    rw [get_modifyNamed]
    cases table.get other <;> simp
  have changed : ∀ other type, (table.modifyNamed id change).get other = .named type →
      type.underlying.index < table.size ∧ ¬ table.IsNamed type.underlying := by
    intro other type named
    rw [get_modifyNamed] at named
    cases kind : table.get other with
    | named before =>
      rw [kind] at named
      dsimp only at named
      split at named
      · next same =>
        cases named
        exact stands before (same ▸ kind)
      · cases named
        exact ⟨settled.inside other _ kind, settled.unnamed other _ kind⟩
    | _ => simp [kind] at named
  constructor
  · rw [get_modifyNamed, settled.start]
  · rw [modifyNamed_size]
    exact settled.nonempty
  · intro other type named
    rw [modifyNamed_size]
    exact (changed other type named).1
  · intro other type named
    rw [isNamed_iff]
    exact (changed other type named).2

theorem tuple (elems : List TypeId) : (table.tuple elems).2.Settled := by
  rcases table.tuple_cases elems with same | added
  · rwa [same]
  · rw [added]
    exact settled.alloc fun type impossible => by cases impossible

end Settled

theorem initial_get (id : TypeId) :
    initial.get id = .invalid ∨ (∃ kind, initial.get id = .basic kind) ∨ initial.get id = .tuple [] := by
  unfold get
  cases found : initial.kinds[id.index]? with
  | none => exact .inl rfl
  | some kind =>
    have member : kind ∈ initial.kinds := Array.mem_of_getElem? found
    simp only [initial, List.mem_toArray, List.mem_cons, List.mem_append, List.mem_map,
      List.not_mem_nil, or_false] at member
    rcases member with rfl | ⟨basic, _, rfl⟩ | rfl
    · exact .inl rfl
    · exact .inr (.inl ⟨basic, rfl⟩)
    · exact .inr (.inr rfl)

theorem initial_settled : initial.Settled := by
  have unnamed : ∀ id type, initial.get id ≠ .named type := by
    intro id type named
    rcases initial_get id with kind | ⟨_, kind⟩ | kind <;> simp [kind] at named
  exact ⟨rfl, by decide, fun id type named => absurd named (unnamed id type),
    fun id type named => absurd named (unnamed id type)⟩

/-- Every operation keeps a table settled. -/
theorem Built.settled {table : TypeTable} (built : table.Built) : table.Settled := by
  induction built with
  | initial => exact initial_settled
  | alloc _ kind unnamed settled =>
    exact settled.alloc fun type named => absurd named (unnamed type)
  | newNamed _ package name settled =>
    refine settled.alloc fun type named => ?_
    cases named
    rfl
  | @pointerTo table _ elem settled =>
    rcases table.pointerTo_cases elem with same | added
    · rwa [same]
    · exact .of_kinds added (settled.alloc fun type impossible => by cases impossible)
  | @sliceOf table _ elem settled =>
    rcases table.sliceOf_cases elem with same | added
    · rwa [same]
    · exact .of_kinds added (settled.alloc fun type impossible => by cases impossible)
  | tuple _ elems settled => exact settled.tuple elems
  | @callResult table _ id settled =>
    rcases table.callResult_table id with same | ⟨elems, added⟩
    · rwa [same]
    · rw [added]
      exact settled.tuple elems
  | setUnderlying _ id type inside settled =>
    refine settled.modifyNamed fun type _ => ?_
    exact ⟨settled.underlying_inside inside, settled.underlying_unnamed _⟩
  | addMethod _ id method settled =>
    refine settled.modifyNamed fun type named => ?_
    exact ⟨settled.inside id type named, settled.unnamed id type named⟩

end Unclosed.TypeTable
