import Mathlib.Data.List.Forall2
import Unclosed.Proofs.FlattenedInterfaces
import Unclosed.Types.Identity

/-!
Type identity is an equivalence.  Two types are compared by their shapes and, one
level deeper, by the types they are made of.  Every level is an equivalence on
its own, so it does not matter where the comparison of deep types is cut.
-/

namespace Unclosed

variable {first second : List TypeId} {id part : TypeId}

def TypeKind.components : TypeKind → List TypeId
  | .invalid | .basic _ | .named _ | .interface _ => []
  | .pointer elem | .slice elem | .array _ elem | .chan _ elem => [elem]
  | .map key value => [key, value]
  | .struct fields => fields.map StructField.type
  | .func type => type.params ++ type.results
  | .tuple elems => elems

inductive Shape where
  | invalid
  | basic (kind : BasicKind)
  | named (id : TypeId)
  | pointer
  | slice
  | array (length : Option Nat)
  | map
  | chan (dir : ChanDir)
  | struct (fields : List (String × Bool))
  | interface (names : List String)
  | func (params : Nat) (variadic : Bool)
  | tuple

namespace TypeTable

/-! ### Lists compared element by element -/

section Lists

variable {same : TypeId → TypeId → Bool}

theorem sameTypes_iff (first second : List TypeId) :
    sameTypes same first second = true ↔
      List.Forall₂ (fun left right => same left right = true) first second := by
  induction first generalizing second with
  | nil => cases second <;> simp [sameTypes]
  | cons type later ih =>
    cases second <;> simp [sameTypes, ih]

theorem sameFields_iff (first second : List StructField) :
    sameFields same first second = true ↔
      (first.map fun field => (field.name, field.embedded)) =
        (second.map fun field => (field.name, field.embedded)) ∧
      List.Forall₂ (fun left right => same left right = true)
        (first.map StructField.type) (second.map StructField.type) := by
  induction first generalizing second with
  | nil => cases second <;> simp [sameFields]
  | cons field later ih =>
    cases second with
    | nil => simp [sameFields]
    | cons other others =>
      simp only [sameFields, Bool.and_eq_true, beq_iff_eq, ih, List.map_cons,
        List.cons.injEq, Prod.mk.injEq, List.forall₂_cons]
      tauto

theorem sameMethods_iff (first second : List (String × TypeId)) :
    sameMethods same first second = true ↔
      first.map Prod.fst = second.map Prod.fst ∧
      List.Forall₂ (fun left right => same left right = true)
        (first.map Prod.snd) (second.map Prod.snd) := by
  induction first generalizing second with
  | nil => cases second <;> simp [sameMethods]
  | cons method later ih =>
    cases second with
    | nil => simp [sameMethods]
    | cons other others =>
      simp only [sameMethods, Bool.and_eq_true, beq_iff_eq, ih,
        List.map_cons, List.cons.injEq, List.forall₂_cons]
      tauto

end Lists

theorem forall₂_append_iff {relation : TypeId → TypeId → Prop} (same : first.length = second.length)
    (firstLater secondLater : List TypeId) :
    List.Forall₂ relation (first ++ firstLater) (second ++ secondLater) ↔
      List.Forall₂ relation first second ∧ List.Forall₂ relation firstLater secondLater := by
  induction first generalizing second with
  | nil =>
    cases second with
    | nil => simp
    | cons => cases same
  | cons type later ih =>
    cases second with
    | nil => cases same
    | cons other others =>
      rw [List.cons_append, List.cons_append, List.forall₂_cons, List.forall₂_cons,
        ih (Nat.succ.inj same), and_assoc]

theorem forall₂_join {left right joined : TypeId → TypeId → Prop} {third : List TypeId}
    (compare : List.Forall₂ left first second) (compareNext : List.Forall₂ right second third)
    (join : ∀ between ∈ second, ∀ before after, left before between → right between after →
      joined before after) : List.Forall₂ joined first third := by
  induction compare generalizing third with
  | nil =>
    cases compareNext
    exact .nil
  | cons head _ ih =>
    cases compareNext with
    | cons headNext compareNext =>
      refine .cons (join _ List.mem_cons_self _ _ head headNext) ?_
      exact ih compareNext fun between member =>
        join between (List.mem_cons_of_mem _ member)

variable (table : TypeTable)

/-! ### Shapes and operands -/

def shape (id : TypeId) : Shape :=
  match table.get id with
  | .invalid => .invalid
  | .basic kind => .basic kind
  | .named _ => .named id
  | .pointer _ => .pointer
  | .slice _ => .slice
  | .array length _ => .array length
  | .map _ _ => .map
  | .chan dir _ => .chan dir
  | .struct fields => .struct (fields.map fun field => (field.name, field.embedded))
  | .interface _ => .interface ((table.interfaceMethods id).map Prod.fst)
  | .func type => .func type.params.length type.variadic
  | .tuple _ => .tuple

/-- The types that identity compares a level deeper; of an interface, the
signatures of all its methods. -/
def operands (id : TypeId) : List TypeId :=
  match table.get id with
  | .interface _ => (table.interfaceMethods id).map Prod.snd
  | kind => kind.components

/-- Types are identical up to a level if they are one, one of them is invalid, or
their shapes are equal and their operands are identical up to the next level. -/
theorem identicalWithin_succ (bound : Nat) (first second : TypeId) :
    table.identicalWithin (bound + 1) first second = true ↔
      first = second ∨ table.get first = .invalid ∨ table.get second = .invalid ∨
      table.shape first = table.shape second ∧
        List.Forall₂ (fun left right => table.identicalWithin bound left right = true)
          (table.operands first) (table.operands second) := by
  by_cases equal : first = second
  · simp [identicalWithin, equal]
  · rw [identicalWithin, Bool.or_eq_true, beq_iff_eq, or_iff_right equal, or_iff_right equal]
    unfold shape operands
    cases kind : table.get first with
    | func type =>
      cases otherKind : table.get second with
      | func other =>
        simp only [TypeKind.components, Bool.and_eq_true, beq_iff_eq, sameTypes_iff,
          reduceCtorEq, false_or, Shape.func.injEq]
        constructor
        · rintro ⟨⟨variadic, params⟩, results⟩
          exact ⟨⟨params.length_eq, variadic⟩,
            (forall₂_append_iff params.length_eq _ _).mpr ⟨params, results⟩⟩
        · rintro ⟨⟨lengths, variadic⟩, operands⟩
          obtain ⟨params, results⟩ := (forall₂_append_iff lengths _ _).mp operands
          exact ⟨⟨variadic, params⟩, results⟩
      | _ => simp
    | _ =>
      cases otherKind : table.get second <;>
        simp [equal, TypeKind.components, sameTypes_iff, sameFields_iff, sameMethods_iff]

/-! ### Types without invalid parts -/

/-- One type is part of another: a component, the signature of a method of an
interface, or an interface embedded in one. -/
inductive Part : TypeId → TypeId → Prop
  | component {id part : TypeId} (member : part ∈ (table.get id).components) : Part id part
  | method {interface : TypeId} {method : String × TypeId}
      (declares : table.Declares interface method) : Part interface method.2
  | embedded {outer inner : TypeId} (embeds : table.Embeds outer inner) : Part outer inner

/-- No invalid type is reached from the type by way of its parts. -/
def Whole (id : TypeId) : Prop :=
  ∀ part, Relation.ReflTransGen table.Part id part → table.get part ≠ .invalid

variable {table}

theorem Whole.valid (whole : table.Whole id) : table.get id ≠ .invalid :=
  whole id .refl

theorem Whole.reached (whole : table.Whole id)
    (reaches : Relation.ReflTransGen table.Part id part) : table.Whole part :=
  fun deeper further => whole deeper (reaches.trans further)

/-- Only interfaces have other parts than their components. -/
theorem Part.mem_components (isPart : table.Part id part)
    (plain : ∀ type, table.get id ≠ .interface type) : part ∈ (table.get id).components := by
  cases isPart with
  | component member => exact member
  | method declares =>
    obtain ⟨type, kind, _⟩ := declares
    exact absurd kind (plain type)
  | embedded embeds =>
    obtain ⟨type, _, kind, _⟩ := embeds
    exact absurd kind (plain type)

theorem whole_of_closed {types : List TypeId} (valid : ∀ type ∈ types, table.get type ≠ .invalid)
    (closed : ∀ type ∈ types, ∀ part, table.Part type part → part ∈ types) (member : id ∈ types) :
    table.Whole id := by
  intro part reaches
  apply valid
  induction reaches with
  | refl => exact member
  | tail _ isPart inside => exact closed _ inside _ isPart

theorem part_of_mem_operands {operand : TypeId} (member : operand ∈ table.operands id) :
    Relation.ReflTransGen table.Part id operand := by
  unfold operands at member
  split at member
  · next type kind =>
    obtain ⟨method, inMethods, rfl⟩ := List.mem_map.mp member
    obtain ⟨interface, reaches, declares⟩ := declared_of_mem_interfaceMethods inMethods
    rw [underlying_of_interface kind] at reaches
    have embedded : Relation.ReflTransGen table.Part id interface :=
      Relation.ReflTransGen.mono (fun _ _ => .embedded) _ _ reaches
    exact embedded.tail (.method declares)
  · exact .single (.component member)

/-! ### Levels of identity -/

theorem identicalWithin_refl (bound : Nat) (id : TypeId) :
    table.identicalWithin bound id id = true := by
  cases bound with
  | zero => exact beq_self_eq_true id
  | succ bound => exact (table.identicalWithin_succ bound id id).mpr (.inl rfl)

theorem identicalWithin_symm (bound : Nat) {first second : TypeId}
    (same : table.identicalWithin bound first second = true) :
    table.identicalWithin bound second first = true := by
  induction bound generalizing first second with
  | zero =>
    rw [identicalWithin, beq_iff_eq] at same ⊢
    exact same.symm
  | succ bound ih =>
    rw [identicalWithin_succ] at same ⊢
    rcases same with rfl | left | right | ⟨shapes, operands⟩
    · exact .inl rfl
    · exact .inr (.inr (.inl left))
    · exact .inr (.inl right)
    · refine .inr (.inr (.inr ⟨shapes.symm, ?_⟩))
      exact (operands.imp fun _ _ => ih).flip

/-- The type in between must be whole, since an invalid type is identical to
every type. -/
theorem identicalWithin_trans (bound : Nat) {first second third : TypeId}
    (whole : table.Whole second) (same : table.identicalWithin bound first second = true)
    (sameNext : table.identicalWithin bound second third = true) :
    table.identicalWithin bound first third = true := by
  -- Both comparisons are cut at one level, so they are joined level by level.
  induction bound generalizing first second third with
  | zero =>
    rw [identicalWithin, beq_iff_eq] at same sameNext ⊢
    exact same.trans sameNext
  | succ bound ih =>
    rw [identicalWithin_succ] at same
    rcases same with rfl | left | right | ⟨shapes, operands⟩
    · exact sameNext
    · exact (table.identicalWithin_succ bound first third).mpr (.inr (.inl left))
    · exact absurd right whole.valid
    · rw [identicalWithin_succ] at sameNext ⊢
      rcases sameNext with rfl | left | right | ⟨shapesNext, operandsNext⟩
      · exact .inr (.inr (.inr ⟨shapes, operands⟩))
      · exact absurd left whole.valid
      · exact .inr (.inr (.inl right))
      · refine .inr (.inr (.inr ⟨shapes.trans shapesNext, ?_⟩))
        apply forall₂_join operands operandsNext
        intro between member before after
        exact ih (whole.reached (part_of_mem_operands member))

/-- Type identity is reflexive and symmetric, and transitive over every type that
has no invalid part. -/
theorem identical_equivalence (table : TypeTable) :
    (∀ id, table.identical id id = true) ∧
    (∀ first second, table.identical first second = table.identical second first) ∧
    ∀ first second third, table.Whole second → table.identical first second = true →
      table.identical second third = true → table.identical first third = true := by
  refine ⟨identicalWithin_refl nestingBound, fun first second => ?_, fun first second third => ?_⟩
  · rw [Bool.eq_iff_iff]
    exact ⟨identicalWithin_symm nestingBound, identicalWithin_symm nestingBound⟩
  · exact identicalWithin_trans nestingBound

/-- At 27 and 28 interfaces with a method that takes a value of the first, and at
29 an interface that embeds the second. -/
def loopTable : TypeTable where
  kinds := initial.kinds ++
    #[.func ⟨[⟨27⟩], [], false⟩, .interface ⟨[("Equal", ⟨26⟩)], []⟩,
      .interface ⟨[("Equal", ⟨26⟩)], []⟩, .interface ⟨[], [⟨28⟩]⟩]
  pointers := []
  slices := []

theorem loopTable_whole : loopTable.Whole ⟨28⟩ := by
  have signature : loopTable.get ⟨26⟩ = .func ⟨[⟨27⟩], [], false⟩ := rfl
  have interface : ∀ id ∈ ([⟨27⟩, ⟨28⟩] : List TypeId),
      loopTable.get id = .interface ⟨[("Equal", ⟨26⟩)], []⟩ := by
    simp only [List.forall_mem_cons]
    exact ⟨rfl, rfl, by simp⟩
  have valid : ∀ id ∈ ([⟨26⟩, ⟨27⟩, ⟨28⟩] : List TypeId), loopTable.get id ≠ .invalid := by
    refine List.forall_mem_cons.mpr ⟨by simp [signature], fun id member => ?_⟩
    simp [interface id member]
  refine whole_of_closed valid (fun id member part isPart => ?_) (by simp)
  rcases List.mem_cons.mp member with rfl | member
  · have inside := isPart.mem_components (by simp [signature])
    rw [signature] at inside
    exact List.mem_cons_of_mem _ (List.mem_singleton.mp inside ▸ List.mem_cons_self)
  · cases isPart with
    | component inside =>
      rw [interface id member] at inside
      cases inside
    | method declares =>
      obtain ⟨_, kind, declared⟩ := declares
      cases (interface id member).symm.trans kind
      rw [List.mem_singleton.mp declared]
      exact List.mem_cons_self
    | embedded embeds =>
      obtain ⟨_, _, kind, _, inner⟩ := embeds
      cases (interface id member).symm.trans kind
      cases inner

theorem loopTable_methods : ∀ id ∈ ([⟨27⟩, ⟨28⟩, ⟨29⟩] : List TypeId),
    loopTable.interfaceMethods id = [("Equal", ⟨26⟩)] := by
  have collected : ∀ id ∈ ([⟨27⟩, ⟨28⟩, ⟨29⟩] : List TypeId),
      (loopTable.collectInterface (loopTable.size + 1) id ⟨[], []⟩).methods
        = [("Equal", ⟨26⟩)] := by
    decide
  intro id member
  exact interfaceMethods_eq_of_ascending (.of_eq (collected id member).symm)
    (List.pairwise_singleton _ _)

/-- Three types that refer to the first of them. -/
theorem looped_interfaces_identical :
    loopTable.Whole ⟨28⟩ ∧ loopTable.identical ⟨27⟩ ⟨28⟩ = true ∧
      loopTable.identical ⟨28⟩ ⟨29⟩ = true ∧ loopTable.identical ⟨27⟩ ⟨29⟩ = true := by
  have first : loopTable.identical ⟨27⟩ ⟨28⟩ = true := by
    change sameMethods _ (loopTable.interfaceMethods ⟨27⟩) (loopTable.interfaceMethods ⟨28⟩) = true
    rw [loopTable_methods ⟨27⟩ (by simp), loopTable_methods ⟨28⟩ (by simp)]
    rfl
  have second : loopTable.identical ⟨28⟩ ⟨29⟩ = true := by
    change sameMethods _ (loopTable.interfaceMethods ⟨28⟩) (loopTable.interfaceMethods ⟨29⟩) = true
    rw [loopTable_methods ⟨28⟩ (by simp), loopTable_methods ⟨29⟩ (by simp)]
    rfl
  obtain ⟨_, _, joined⟩ := identical_equivalence loopTable
  exact ⟨loopTable_whole, first, second, joined _ _ _ loopTable_whole first second⟩

/-- The invalid type is identical to types that are not identical. -/
example : initial.identical (basic .int) invalid = true ∧
    initial.identical invalid (basic .string) = true ∧
    initial.identical (basic .int) (basic .string) = false := by
  decide

end TypeTable
end Unclosed
