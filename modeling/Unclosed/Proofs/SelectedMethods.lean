import Unclosed.Proofs.FlattenedInterfaces
import Unclosed.Types.MethodSet

/-!
Method sets compared with selectors.  Both look into the types embedded in a
type, depth by depth.  A selector takes the first type that has the name; a
method set passes over fields and over methods that do not apply, and takes the
methods of an embedded interface together with the type that embeds it.  The two
agree where none of this makes a difference.
-/

namespace Unclosed

def Selection.isMethod : Selection → Bool
  | .method _ _ _ | .interfaceMethod _ _ => true
  | _ => false

namespace TypeTable

variable (table : TypeTable) (id : TypeId) {level holders : List Holder}

/-! ### Depths -/

def below (holder : Holder) : List Holder :=
  (table.embeddedFields holder.type).map (table.embeddedHolder holder)

def fresh : List TypeId → List Holder → List Holder
  | _, [] => []
  | seen, holder :: later =>
    if seen.contains holder.type then fresh seen later
    else holder :: fresh (holder.type :: seen) later

theorem fresh_cons (seen : List TypeId) (holder : Holder) (later : List Holder) :
    fresh seen (holder :: later) =
      if seen.contains holder.type then fresh seen later
      else holder :: fresh (holder.type :: seen) later :=
  rfl

/-- Types reached from those of a level, depth by depth, each where it comes up
first. -/
def layers (below : Holder → List Holder) : Nat → List TypeId → List Holder → List (List Holder)
  | 0, _, _ => []
  | bound + 1, seen, level =>
    fresh seen level ::
      layers below bound (((fresh seen level).map Holder.type).reverse ++ seen)
        ((fresh seen level).flatMap below)

def base : Holder :=
  match table.get id with
  | .pointer elem => ⟨elem, true⟩
  | _ => ⟨id, false⟩

/-- The type behind `id` and the types embedded in it, depth by depth. -/
def depths : List (List Holder) :=
  layers table.below embeddingBound [] [table.base id]

theorem base_type : (table.base id).type = table.dereferenced id := by
  unfold base dereferenced
  cases table.get id <;> rfl

theorem below_types (holder : Holder) :
    (table.below holder).map Holder.type =
      (table.embeddedFields holder.type).map fun field => table.dereferenced field.type := by
  unfold below
  rw [List.map_map]
  refine List.map_congr_left fun field _ => ?_
  unfold Function.comp embeddedHolder dereferenced
  cases table.get field.type <;> rfl

theorem layers_nil (next : Holder → List Holder) (bound : Nat) (seen : List TypeId) :
    (layers next bound seen []).flatten = [] := by
  induction bound generalizing seen with
  | zero => rfl
  | succ bound ih =>
    rw [layers, List.flatten_cons]
    exact ih _

theorem seen_or_fresh (seen : List TypeId) {holder : Holder} (member : holder ∈ level) :
    holder.type ∈ seen ∨ holder.type ∈ (fresh seen level).map Holder.type := by
  induction level generalizing seen with
  | nil => cases member
  | cons first later ih =>
    unfold fresh
    split
    · next known =>
      rcases List.mem_cons.mp member with rfl | member
      · exact .inl (List.contains_iff_mem.mp known)
      · exact ih seen member
    · rcases List.mem_cons.mp member with rfl | member
      · exact .inr List.mem_cons_self
      · rcases ih (first.type :: seen) member with known | isFresh
        · rcases List.mem_cons.mp known with same | known
          · exact .inr (List.mem_cons.mpr (.inl same))
          · exact .inl known
        · exact .inr (List.mem_cons_of_mem _ isFresh)

/-- What stands before a new type in its level is known or new before it. -/
theorem exists_before_fresh {seen : List TypeId} {left right : List Holder} {holder : Holder}
    (split : fresh seen level = left ++ holder :: right) :
    ∃ before after, level = before ++ holder :: after ∧
      ∀ other ∈ before, other.type ∈ seen ∨ other.type ∈ left.map Holder.type := by
  induction level generalizing seen left with
  | nil => simp [fresh] at split
  | cons first later ih =>
    unfold fresh at split
    split at split
    · next known =>
      obtain ⟨before, after, rfl, earlier⟩ := ih split
      refine ⟨first :: before, after, rfl, List.forall_mem_cons.mpr ⟨.inl ?_, earlier⟩⟩
      exact List.contains_iff_mem.mp known
    · cases left with
      | nil =>
        obtain ⟨rfl, _⟩ := List.cons.inj split
        exact ⟨[], later, rfl, by simp⟩
      | cons head others =>
        obtain ⟨rfl, rest⟩ := List.cons.inj split
        obtain ⟨before, after, rfl, earlier⟩ := ih rest
        refine ⟨first :: before, after, rfl, List.forall_mem_cons.mpr ⟨?_, ?_⟩⟩
        · exact .inr List.mem_cons_self
        · intro other member
          rcases earlier other member with known | isLeft
          · rcases List.mem_cons.mp known with same | known
            · exact .inr (List.mem_cons.mpr (.inl same))
            · exact .inl known
          · exact .inr (List.mem_cons_of_mem _ isLeft)

/-! ### Selectors -/

theorem searchLevel_eq (name : String) (level : List Holder) (seen next : List TypeId) :
    table.searchLevel name (level.map Holder.type) seen next =
      match (fresh seen level).findSome? fun holder => table.directSelection? holder.type name with
      | some selection => .inl selection
      | none => .inr (((fresh seen level).map Holder.type).reverse ++ seen,
          next ++ ((fresh seen level).flatMap table.below).map Holder.type) := by
  induction level generalizing seen next with
  | nil => simp [searchLevel, fresh]
  | cons holder later ih =>
    rw [List.map_cons]
    unfold searchLevel fresh
    split
    · exact ih seen next
    · cases found : table.directSelection? holder.type name with
      | some selection => simp [found]
      | none =>
        dsimp only
        rw [ih, List.findSome?_cons, found]
        simp [below_types]

/-- A selector takes the first type, depth by depth, that has the name. -/
theorem searchLevels_eq (name : String) (bound : Nat) (level : List Holder) (seen : List TypeId) :
    table.searchLevels name bound (level.map Holder.type) seen =
      (layers table.below bound seen level).flatten.findSome? fun holder =>
        table.directSelection? holder.type name := by
  induction bound generalizing level seen with
  | zero => rfl
  | succ bound ih =>
    unfold searchLevels
    rw [searchLevel_eq, layers, List.flatten_cons, List.findSome?_append]
    cases found : (fresh seen level).findSome? fun holder =>
        table.directSelection? holder.type name with
    | some selection => rfl
    | none =>
      rw [Option.none_or, List.nil_append]
      dsimp only
      split
      · next last =>
        have none' : (fresh seen level).flatMap table.below = [] := by
          simpa using last
        rw [none', layers_nil]
        rfl
      · exact ih _ _

theorem select?_eq {id : TypeId} (concrete : table.isInterface id = false) (name : String) :
    table.select? id name =
      (table.depths id).flatten.findSome? fun holder => table.directSelection? holder.type name := by
  unfold select? depths
  rw [concrete, ← searchLevels_eq, List.map_singleton, base_type]
  rfl

/-! ### Method sets -/

def isConcrete (holder : Holder) : Bool := !table.isInterface holder.type

def promoted (holders : List Holder) : List (String × TypeId) :=
  (holders.filter fun holder => table.isInterface holder.type).flatMap fun holder =>
    table.interfaceMethods holder.type

/-- The methods that a method set takes where it looks into a type: those of the
type, and those of the interfaces embedded in it. -/
def sources (holder : Holder) : List (String × TypeId) :=
  table.ownMethods holder ++ table.promoted (table.below holder)

theorem promoted_append (first second : List Holder) :
    table.promoted (first ++ second) = table.promoted first ++ table.promoted second := by
  simp [promoted]

theorem foldl_visitEmbedded (holder : Holder) (fields : List StructField)
    (methods : List (String × TypeId)) (next : List Holder) :
    fields.foldl (table.visitEmbedded holder) (methods, next) =
      ((table.promoted (fields.map (table.embeddedHolder holder))).foldl addNew methods,
        next ++ (fields.map (table.embeddedHolder holder)).filter table.isConcrete) := by
  induction fields generalizing methods next with
  | nil => simp [promoted]
  | cons field later ih =>
    have step : table.visitEmbedded holder (methods, next) field =
        ((table.promoted [table.embeddedHolder holder field]).foldl addNew methods,
          next ++ [table.embeddedHolder holder field].filter table.isConcrete) := by
      unfold visitEmbedded
      dsimp only
      split
      · next interface => simp [promoted, isConcrete, interface]
      · next concrete => simp [promoted, isConcrete, concrete]
    have parts : (field :: later).map (table.embeddedHolder holder) =
        [table.embeddedHolder holder field] ++ later.map (table.embeddedHolder holder) := rfl
    rw [List.foldl_cons, step, ih, parts, promoted_append, List.foldl_append,
      List.filter_append, List.append_assoc]

theorem visitHolders_eq (level : List Holder) (search : MethodSearch) (next : List Holder) :
    table.visitHolders level search next =
      (⟨((fresh search.seen level).flatMap table.sources).foldl addNew search.methods,
        ((fresh search.seen level).map Holder.type).reverse ++ search.seen⟩,
       next ++ (fresh search.seen level).flatMap fun holder =>
        (table.below holder).filter table.isConcrete) := by
  induction level generalizing search next with
  | nil => simp [visitHolders, fresh]
  | cons holder later ih =>
    unfold visitHolders fresh
    split
    · exact ih search next
    · dsimp only
      rw [foldl_visitEmbedded]
      dsimp only
      rw [ih]
      simp [sources, below, List.foldl_append]

theorem collectMethods_eq (bound : Nat) (level : List Holder) (search : MethodSearch) :
    (table.collectMethods bound level search).methods =
      ((layers (fun holder => (table.below holder).filter table.isConcrete) bound search.seen
        level).flatten.flatMap table.sources).foldl addNew search.methods := by
  induction bound generalizing level search with
  | zero => rfl
  | succ bound ih =>
    unfold collectMethods
    rw [visitHolders_eq, layers, List.flatten_cons, List.flatMap_append, List.foldl_append]
    dsimp only
    split
    · next last =>
      rw [List.nil_append, List.isEmpty_iff] at last
      rw [last, layers_nil]
      rfl
    · rw [ih, List.nil_append]

theorem below_interface {holder : Holder} (interface : table.isInterface holder.type = true) :
    table.below holder = [] := by
  have none' : table.structFields? holder.type = none := by
    unfold isInterface at interface
    unfold structFields?
    cases kind : table.underlyingKind holder.type with
    | interface type => rfl
    | _ => simp [kind] at interface
  simp [below, embeddedFields, none']

theorem fresh_filter {seen known : List TypeId} (level : List Holder)
    (same : ∀ type, table.isInterface type = false → (type ∈ seen ↔ type ∈ known)) :
    (fresh seen level).filter table.isConcrete = fresh known (level.filter table.isConcrete) := by
  induction level generalizing seen known with
  | nil => rfl
  | cons holder later ih =>
    cases interface : table.isInterface holder.type with
    | true =>
      have dropped : (holder :: later).filter table.isConcrete
          = later.filter table.isConcrete := by simp [isConcrete, interface]
      rw [dropped, fresh_cons]
      split
      · exact ih same
      · rw [List.filter_cons_of_neg (by simp [isConcrete, interface])]
        refine ih fun type concrete => ?_
        rw [← same type concrete, List.mem_cons]
        exact or_iff_right fun equal => by simp [equal, interface] at concrete
    | false =>
      have kept : (holder :: later).filter table.isConcrete
          = holder :: later.filter table.isConcrete := by simp [isConcrete, interface]
      rw [kept, fresh_cons, fresh_cons]
      have decision : seen.contains holder.type = known.contains holder.type := by
        rw [Bool.eq_iff_iff, List.contains_iff_mem, List.contains_iff_mem]
        exact same _ interface
      rw [decision]
      split
      · exact ih same
      · rw [List.filter_cons_of_pos (by simp [isConcrete, interface])]
        refine congrArg _ (ih fun type concrete => ?_)
        rw [List.mem_cons, List.mem_cons, same type concrete]

theorem flatMap_concrete (holders : List Holder) :
    (holders.flatMap fun holder => (table.below holder).filter table.isConcrete) =
      (holders.filter table.isConcrete).flatMap fun holder =>
        (table.below holder).filter table.isConcrete := by
  induction holders with
  | nil => rfl
  | cons holder later ih =>
    cases interface : table.isInterface holder.type with
    | true => simp [isConcrete, interface, below_interface, ih]
    | false => simp [isConcrete, interface, ih]

/-- A method set looks into the same types as a selector, interfaces left out. -/
theorem layers_filter (bound : Nat) (seen known : List TypeId) (level : List Holder)
    (same : ∀ type, table.isInterface type = false → (type ∈ seen ↔ type ∈ known)) :
    (layers table.below bound seen level).map (List.filter table.isConcrete) =
      layers (fun holder => (table.below holder).filter table.isConcrete) bound known
        (level.filter table.isConcrete) := by
  induction bound generalizing seen known level with
  | zero => rfl
  | succ bound ih =>
    rw [layers, layers, List.map_cons, ← table.fresh_filter level same]
    refine congrArg _ ?_
    rw [ih _ ((((fresh seen level).filter table.isConcrete).map Holder.type).reverse ++ known)]
    · refine congrArg _ ?_
      rw [List.filter_flatMap]
      exact table.flatMap_concrete _
    · intro type concrete
      rw [List.mem_append, List.mem_append, same type concrete, List.mem_reverse, List.mem_reverse]
      refine or_congr_left ⟨fun member => ?_, fun member => ?_⟩
      · obtain ⟨holder, inLayer, rfl⟩ := List.mem_map.mp member
        exact List.mem_map_of_mem (List.mem_filter.mpr ⟨inLayer, by simp [isConcrete, concrete]⟩)
      · obtain ⟨holder, inLayer, rfl⟩ := List.mem_map.mp member
        exact List.mem_map_of_mem (List.mem_filter.mp inLayer).1

def candidates (bound : Nat) (seen : List TypeId) (level : List Holder) :
    List (String × TypeId) :=
  ((layers table.below bound seen level).flatten.filter table.isConcrete).flatMap table.sources

theorem methodSet_eq {id : TypeId} (concrete : table.isInterface id = false)
    (start : table.isInterface (table.base id).type = false) :
    table.methodSet id = (table.candidates embeddingBound [] [table.base id]).foldl addNew [] := by
  have kept : [table.base id].filter table.isConcrete = [table.base id] := by
    simp [isConcrete, start]
  have same := table.layers_filter embeddingBound [] [] [table.base id] fun _ _ => Iff.rfl
  unfold methodSet candidates
  rw [concrete, List.filter_flatten, same, kept]
  exact table.collectMethods_eq _ _ _

theorem candidates_succ (bound : Nat) (seen : List TypeId) (level : List Holder) :
    table.candidates (bound + 1) seen level =
      ((fresh seen level).filter table.isConcrete).flatMap table.sources ++
        table.candidates bound (((fresh seen level).map Holder.type).reverse ++ seen)
          ((fresh seen level).flatMap table.below) := by
  unfold candidates
  rw [layers, List.flatten_cons, List.filter_append, List.flatMap_append]

/-! ### Types without the name -/

section Name

variable {name : String}

theorem ownMethods_find?_none {holder : Holder}
    (quiet : table.directSelection? holder.type name = none) :
    (table.ownMethods holder).find? (·.1 == name) = none := by
  unfold ownMethods
  split
  · next type kind =>
    have absent : type.methods.find? (·.name == name) = none := by
      unfold directSelection? declaredMethod? at quiet
      rw [kind] at quiet
      cases found : type.methods.find? (·.name == name) with
      | none => rfl
      | some method => simp [found] at quiet
    rw [List.find?_map, Option.map_eq_none_iff, List.find?_eq_none]
    intro method member
    exact List.find?_eq_none.mp absent method (List.mem_filter.mp member).1
  · rfl

theorem interfaceMethods_find?_none {type : TypeId} (interface : table.isInterface type = true)
    (quiet : table.directSelection? type name = none) :
    (table.interfaceMethods type).find? (·.1 == name) = none := by
  unfold directSelection? at quiet
  split at quiet
  · cases quiet
  · rw [if_pos interface] at quiet
    exact Option.map_eq_none_iff.mp quiet

theorem promoted_find?_none (quiet : ∀ holder ∈ holders, table.isInterface holder.type = true →
      (table.interfaceMethods holder.type).find? (·.1 == name) = none) :
    (table.promoted holders).find? (·.1 == name) = none := by
  rw [List.find?_eq_none]
  intro method member
  obtain ⟨holder, isInterface, inHolder⟩ := List.mem_flatMap.mp member
  obtain ⟨inHolders, interface⟩ := List.mem_filter.mp isInterface
  exact List.find?_eq_none.mp (quiet holder inHolders interface) method inHolder

/-- Looking into types without the name leads to the interfaces embedded in them. -/
theorem sources_find?_of_quiet
    (quiet : ∀ holder ∈ holders, table.directSelection? holder.type name = none) :
    ((holders.filter table.isConcrete).flatMap table.sources).find? (·.1 == name) =
      (table.promoted (holders.flatMap table.below)).find? (·.1 == name) := by
  induction holders with
  | nil => rfl
  | cons holder later ih =>
    rw [List.forall_mem_cons] at quiet
    rw [List.flatMap_cons, promoted_append, List.find?_append, ← ih quiet.2]
    cases interface : table.isInterface holder.type with
    | true => simp [isConcrete, interface, below_interface, promoted]
    | false =>
      rw [List.filter_cons_of_pos (by simp [isConcrete, interface]), List.flatMap_cons,
        List.find?_append, sources, List.find?_append,
        table.ownMethods_find?_none quiet.1, Option.none_or]

/-- The interfaces of a level lack the name where the types seen before and those
new in it do. -/
theorem promoted_level_find?_none {seen : List TypeId}
    (known : ∀ type ∈ seen, table.directSelection? type name = none)
    (quiet : ∀ holder ∈ fresh seen level, table.isInterface holder.type = true →
      (table.interfaceMethods holder.type).find? (·.1 == name) = none) :
    (table.promoted level).find? (·.1 == name) = none := by
  refine table.promoted_find?_none fun holder member interface => ?_
  rcases seen_or_fresh seen member with before | isFresh
  · exact table.interfaceMethods_find?_none interface (known _ before)
  · obtain ⟨other, inFresh, same⟩ := List.mem_map.mp isFresh
    rw [← same] at interface ⊢
    exact quiet other inFresh interface

/-! ### The first type with the name -/

/-- The holder has the name as a method of the signature that a method set takes:
it comes from an interface, or it is declared for the holder, and no interface
that stands in the same layer, or is embedded in a type on the left, has the name
too. -/
inductive Applies (name : String) (left : List Holder) (holder : Holder) (right : List Holder) :
    TypeId → Prop
  | interface {signature : TypeId} (interface : table.isInterface holder.type = true)
      (bare : table.declaredMethod? holder.type name = none)
      (found : (table.interfaceMethods holder.type).find? (·.1 == name) = some (name, signature)) :
      Applies name left holder right signature
  | declared {type : NamedType} {method : Method}
      (concrete : table.isInterface holder.type = false)
      (kind : table.get holder.type = .named type)
      (found : type.methods.find? (·.name == name) = some method)
      (applies : (holder.addressable || !method.pointerReceiver) = true)
      (alone : ∀ other ∈ right ++ left.flatMap table.below, table.isInterface other.type = true →
        (table.interfaceMethods other.type).find? (·.1 == name) = none) :
      Applies name left holder right method.signature

variable {left right : List Holder} {holder : Holder} {signature : TypeId}

theorem Applies.select {table : TypeTable} (applies : table.Applies name left holder right signature) :
    ∃ selection, table.directSelection? holder.type name = some selection ∧
      selection.isMethod = true ∧ selection.type? = some signature := by
  unfold directSelection?
  cases applies with
  | interface interface bare found =>
    rw [bare, if_pos interface]
    unfold interfaceSelection?
    rw [found]
    exact ⟨_, rfl, rfl, rfl⟩
  | declared concrete kind found applies alone =>
    unfold declaredMethod?
    rw [kind]
    dsimp only
    rw [found]
    exact ⟨_, rfl, rfl, rfl⟩

/-- The first element that is looked for stays the first one when elements before
it are left out. -/
theorem find?_filter_of_first {α : Type} {looked kept : α → Bool} {items : List α} {item : α}
    (found : items.find? looked = some item) (isKept : kept item = true) :
    (items.filter kept).find? looked = some item := by
  obtain ⟨same, before, after, rfl, earlier⟩ := List.find?_eq_some_iff_append.mp found
  rw [List.filter_append, List.filter_cons, if_pos isKept]
  refine List.find?_eq_some_iff_append.mpr ⟨same, _, _, rfl, fun other member => ?_⟩
  exact earlier other (List.mem_filter.mp member).1

theorem ownMethods_find? {type : NamedType} {method : Method}
    (kind : table.get holder.type = .named type)
    (found : type.methods.find? (·.name == name) = some method)
    (applies : (holder.addressable || !method.pointerReceiver) = true) :
    (table.ownMethods holder).find? (·.1 == name) = some (name, method.signature) := by
  have same : method.name = name := by simpa using List.find?_some found
  have applying : (type.methods.filter fun method =>
      holder.addressable || !method.pointerReceiver).find? (·.name == name) = some method :=
    find?_filter_of_first found applies
  unfold ownMethods
  rw [kind]
  dsimp only
  rw [List.find?_map]
  have located := congrArg (Option.map fun method : Method => (method.name, method.signature))
    applying
  rw [Option.map_some, same] at located
  exact located

/-- Where the first type with the name has it as a method that applies, a method
set takes that method. -/
theorem candidates_find? (depth : Nat) {bound : Nat} {seen : List TypeId}
    (known : ∀ type ∈ seen, table.directSelection? type name = none)
    (layer : (layers table.below bound seen level)[depth]? = some (left ++ holder :: right))
    (quiet : ∀ other ∈ ((layers table.below bound seen level).take depth).flatten ++ left,
      table.directSelection? other.type name = none)
    (applies : table.Applies name left holder right signature) :
    (table.promoted level ++ table.candidates bound seen level).find? (·.1 == name) =
      some (name, signature) := by
  -- The methods of a level's interfaces come before those of its other types,
  -- since they were taken with the types that embed them.
  induction depth generalizing bound seen level with
  | zero =>
    cases bound with
    | zero => cases layer
    | succ bound =>
      rw [layers, List.getElem?_cons_zero, Option.some_inj] at layer
      rw [List.take_zero, List.flatten_nil, List.nil_append] at quiet
      cases applies with
      | interface interface bare found =>
        obtain ⟨before, after, rfl, earlier⟩ := exists_before_fresh layer
        have none' : (table.promoted before).find? (·.1 == name) = none := by
          refine table.promoted_find?_none fun other member isInterface =>
            table.interfaceMethods_find?_none isInterface ?_
          rcases earlier other member with isKnown | isLeft
          · exact known _ isKnown
          · obtain ⟨same, inLeft, equal⟩ := List.mem_map.mp isLeft
            rw [← equal]
            exact quiet same inLeft
        have first : table.promoted (holder :: after) =
            table.interfaceMethods holder.type ++ table.promoted after := by
          simp [promoted, interface]
        rw [promoted_append, first, List.find?_append, List.find?_append, none',
          List.find?_append, found]
        rfl
      | declared concrete kind found applies alone =>
        have none' : (table.promoted level).find? (·.1 == name) = none := by
          refine table.promoted_level_find?_none known fun other member isInterface => ?_
          rw [layer] at member
          rcases List.mem_append.mp member with inLeft | member
          · exact table.interfaceMethods_find?_none isInterface (quiet other inLeft)
          · rcases List.mem_cons.mp member with rfl | inRight
            · rw [concrete] at isInterface
              cases isInterface
            · exact alone other (List.mem_append_left _ inRight) isInterface
        have passed : ((left.filter table.isConcrete).flatMap table.sources).find?
            (·.1 == name) = none := by
          rw [table.sources_find?_of_quiet quiet]
          exact table.promoted_find?_none fun other member =>
            alone other (List.mem_append_right _ member)
        rw [List.find?_append, none', Option.none_or, candidates_succ, layer,
          List.filter_append, List.filter_cons_of_pos (by simp [isConcrete, concrete]),
          List.flatMap_append, List.flatMap_cons, List.find?_append, List.find?_append,
          passed, Option.none_or, List.find?_append, sources, List.find?_append,
          table.ownMethods_find? kind found applies]
        rfl
  | succ depth ih =>
    cases bound with
    | zero => cases layer
    | succ bound =>
      rw [layers, List.getElem?_cons_succ] at layer
      rw [layers, List.take_succ_cons, List.flatten_cons, List.append_assoc,
        List.forall_mem_append] at quiet
      have none' : (table.promoted level).find? (·.1 == name) = none :=
        table.promoted_level_find?_none known fun other member isInterface =>
          table.interfaceMethods_find?_none isInterface (quiet.1 other member)
      rw [List.find?_append, none', Option.none_or, candidates_succ, List.find?_append,
        table.sources_find?_of_quiet quiet.1, ← List.find?_append]
      refine ih ?_ layer quiet.2
      intro type member
      rcases List.mem_append.mp member with isFresh | isKnown
      · obtain ⟨other, inFresh, rfl⟩ := List.mem_map.mp (List.mem_reverse.mp isFresh)
        exact quiet.1 other inFresh
      · exact known type isKnown

end Name

/-! ### Agreement -/

/-- The name is clear on a type: the type is an interface, or the first type with
the name, depth by depth, has it as a method that applies. -/
def Clear (name : String) : Prop :=
  table.isInterface id = true ∨
    table.isInterface (table.base id).type = false ∧
    ∃ depth left holder right signature,
      (table.depths id)[depth]? = some (left ++ holder :: right) ∧
      (∀ other ∈ ((table.depths id).take depth).flatten ++ left,
        table.directSelection? other.type name = none) ∧
      table.Applies name left holder right signature

def SelectsMethod (name : String) (signature : TypeId) : Prop :=
  ∃ selection, table.select? id name = some selection ∧ selection.isMethod = true ∧
    selection.type? = some signature

theorem methodSet_distinct : Distinct (table.methodSet id) := by
  unfold methodSet
  split
  · exact table.interfaceMethods_distinct id
  · rw [collectMethods_eq]
    exact distinct_nil.foldl_addNew _

theorem selectsMethod_interface {id : TypeId} (interface : table.isInterface id = true)
    (name : String) (signature : TypeId) :
    table.SelectsMethod id name signature ↔
      (table.interfaceMethods id).find? (·.1 == name) = some (name, signature) := by
  unfold SelectsMethod select? interfaceSelection?
  rw [if_pos interface]
  constructor
  · rintro ⟨selection, found, _, type⟩
    obtain ⟨entry, located, rfl⟩ := Option.map_eq_some_iff.mp found
    have same : entry.1 = name := by simpa using List.find?_some located
    rw [located, ← same, ← Option.some.inj type]
  · intro found
    rw [found]
    exact ⟨_, rfl, rfl, rfl⟩

/-- A selector takes what the first type with the name has. -/
theorem select?_of_first {id : TypeId} (concrete : table.isInterface id = false) {name : String}
    {depth : Nat} {left right : List Holder} {holder : Holder}
    (layer : (table.depths id)[depth]? = some (left ++ holder :: right))
    (quiet : ∀ other ∈ ((table.depths id).take depth).flatten ++ left,
      table.directSelection? other.type name = none)
    {selection : Selection} (found : table.directSelection? holder.type name = some selection) :
    table.select? id name = some selection := by
  obtain ⟨inside, same⟩ := List.getElem?_eq_some_iff.mp layer
  have parts : (table.depths id).flatten = (((table.depths id).take depth).flatten ++ left) ++
      (holder :: right ++ ((table.depths id).drop (depth + 1)).flatten) := by
    have whole : table.depths id = (table.depths id).take depth ++
        (left ++ holder :: right) :: (table.depths id).drop (depth + 1) := by
      rw [← same, ← List.drop_eq_getElem_cons inside, List.take_append_drop]
    exact (congrArg List.flatten whole).trans (by simp)
  have none' : ((((table.depths id).take depth).flatten ++ left).findSome? fun holder =>
      table.directSelection? holder.type name) = none := List.findSome?_eq_none_iff.mpr quiet
  rw [table.select?_eq concrete, parts, List.findSome?_append, none', Option.none_or,
    List.cons_append, List.findSome?_cons, found]

theorem mem_methodSet_iff_selectsMethod {id : TypeId} {name : String}
    (clear : table.Clear id name) (signature : TypeId) :
    (name, signature) ∈ table.methodSet id ↔ table.SelectsMethod id name signature := by
  cases interface : table.isInterface id with
  | true =>
    rw [table.selectsMethod_interface interface, ← (table.interfaceMethods_distinct id).mem_iff_find?]
    unfold methodSet
    rw [if_pos interface]
  | false =>
    obtain ⟨start, depth, left, holder, right, taken, layer, quiet, applies⟩ :=
      clear.resolve_left (by simp [interface])
    obtain ⟨selection, found, isMethod, type⟩ := applies.select
    have selected := table.select?_of_first interface layer quiet found
    have listed : (table.methodSet id).find? (·.1 == name) = some (name, taken) := by
      have first := table.candidates_find? depth (by simp) layer quiet applies
      have noInterface : table.promoted [table.base id] = [] := by simp [promoted, start]
      rw [noInterface, List.nil_append] at first
      rw [table.methodSet_eq interface start, find?_foldl_addNew]
      exact first
    rw [(table.methodSet_distinct id).mem_iff_find?, listed]
    constructor
    · intro same
      cases same
      exact ⟨selection, selected, isMethod, type⟩
    · rintro ⟨other, same, _, otherType⟩
      rw [selected] at same
      cases same
      rw [type] at otherType
      cases otherType
      rfl

/-- Where a name is clear, the method set of a type has it with a signature
exactly if it selects a method of that signature.  So where a type implements an
interface, the clear names of its methods select methods of identical signature. -/
theorem methodSet_agrees_with_select :
    (∀ name, table.Clear id name → ∀ signature,
      (name, signature) ∈ table.methodSet id ↔ table.SelectsMethod id name signature) ∧
    ∀ interface, table.implements id interface = true →
      ∀ method ∈ table.interfaceMethods interface, table.Clear id method.1 →
        ∃ signature, table.SelectsMethod id method.1 signature ∧
          table.identical signature method.2 = true := by
  refine ⟨fun name clear => table.mem_methodSet_iff_selectsMethod clear, ?_⟩
  intro interface implements method required clear
  unfold TypeTable.implements at implements
  split at implements
  · cases implements
  · have available := List.all_eq_true.mp implements method required
    obtain ⟨⟨name, signature⟩, member, same⟩ := List.any_eq_true.mp available
    rw [Bool.and_eq_true, beq_iff_eq] at same
    obtain ⟨rfl, identical⟩ := same
    exact ⟨signature, (table.mem_methodSet_iff_selectsMethod clear signature).mp member, identical⟩

/-! ### Sample types -/

def closeMethod : Method := ⟨"Close", ⟨26⟩, false, ⟨0⟩⟩

def embeddedField (name : String) (type : TypeId) : StructField := ⟨name, type, true, true, none⟩

/-- `Outer` at 31 embeds `Inner`, and the interface at 32 has the method of
`Inner`.  `Flagged` at 34 has a field of the method's name beside it, `Layer` at
37 embeds `Own`, which has a method for pointers, beside `Outer`, and `Both` at
42 embeds `Wrap`, which embeds the interface, beside `Text`, which has a method
that answers a number. -/
def sampleTable : TypeTable where
  kinds := initial.kinds ++
    #[.func ⟨[], [], false⟩, .func ⟨[], [basic .int], false⟩, .struct [],
      .named ⟨"a", "Inner", ⟨28⟩, [closeMethod]⟩,
      .struct [embeddedField "Inner" ⟨29⟩], .named ⟨"a", "Outer", ⟨30⟩, []⟩,
      .interface ⟨[("Close", ⟨26⟩)], []⟩,
      .struct [⟨"Close", basic .int, false, true, none⟩, embeddedField "Inner" ⟨29⟩],
      .named ⟨"a", "Flagged", ⟨33⟩, []⟩,
      .named ⟨"a", "Own", ⟨28⟩, [⟨"Close", ⟨27⟩, true, ⟨1⟩⟩]⟩,
      .struct [embeddedField "Own" ⟨35⟩, embeddedField "Outer" ⟨31⟩],
      .named ⟨"a", "Layer", ⟨36⟩, []⟩,
      .struct [embeddedField "C" ⟨32⟩], .named ⟨"a", "Wrap", ⟨38⟩, []⟩,
      .named ⟨"a", "Text", ⟨28⟩, [⟨"Close", ⟨27⟩, false, ⟨2⟩⟩]⟩,
      .struct [embeddedField "Wrap" ⟨39⟩, embeddedField "Text" ⟨40⟩],
      .named ⟨"a", "Both", ⟨41⟩, []⟩]
  pointers := []
  slices := []

/-- The method that `Outer` has from `Inner`. -/
theorem promoted_method_agrees :
    sampleTable.Clear ⟨31⟩ "Close" ∧ ("Close", ⟨26⟩) ∈ sampleTable.methodSet ⟨31⟩ ∧
      sampleTable.SelectsMethod ⟨31⟩ "Close" ⟨26⟩ ∧
      sampleTable.implements ⟨31⟩ ⟨32⟩ = true ∧
      ∃ signature, sampleTable.SelectsMethod ⟨31⟩ "Close" signature ∧
        sampleTable.identical signature ⟨26⟩ = true := by
  have applies : sampleTable.Applies "Close" [] ⟨⟨29⟩, false⟩ [] closeMethod.signature :=
    .declared rfl rfl rfl rfl fun other member => absurd member List.not_mem_nil
  have outer : ((sampleTable.depths ⟨31⟩).take 1).flatten ++ [] = [⟨⟨31⟩, false⟩] := rfl
  have clear : sampleTable.Clear ⟨31⟩ "Close" := by
    refine .inr ⟨rfl, 1, [], ⟨⟨29⟩, false⟩, [], ⟨26⟩, rfl, fun other member => ?_, applies⟩
    rw [outer] at member
    rw [List.mem_singleton.mp member]
    rfl
  have implements : sampleTable.implements ⟨31⟩ ⟨32⟩ = true := by decide +kernel
  have member : ("Close", ⟨26⟩) ∈ sampleTable.methodSet ⟨31⟩ := by decide +kernel
  have required : ("Close", ⟨26⟩) ∈ sampleTable.interfaceMethods ⟨32⟩ := by decide +kernel
  obtain ⟨agrees, satisfied⟩ := sampleTable.methodSet_agrees_with_select ⟨31⟩
  exact ⟨clear, member, (agrees "Close" clear ⟨26⟩).mp member, implements,
    satisfied ⟨32⟩ implements ("Close", ⟨26⟩) required clear⟩

/-- The method sets of `Flagged`, `Layer` and `Both` have the method, so all three
implement the interface.  Its name selects a field of the first and another method
of the others. -/
theorem unclear_methods_differ :
    (([⟨34⟩, ⟨37⟩, ⟨42⟩] : List TypeId).map fun id =>
      (sampleTable.methodSet id, sampleTable.implements id ⟨32⟩,
        (sampleTable.select? id "Close").map fun selection =>
          (selection.isMethod, selection.type?))) =
      [([("Close", ⟨26⟩)], true, some (false, some (basic .int))),
       ([("Close", ⟨26⟩)], true, some (true, some ⟨27⟩)),
       ([("Close", ⟨26⟩)], true, some (true, some ⟨27⟩))] := by
  decide +kernel

end TypeTable
end Unclosed
