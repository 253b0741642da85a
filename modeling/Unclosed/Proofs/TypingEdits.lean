import Mathlib.Logic.Relation
import Unclosed.Proofs.TypingRegimes

/-!
What the type checking of one package can change.  All of it is made of a few
kinds of edits of the state, each of which refers only to types and
declarations that the package may see.

A *horizon* fixes what may be seen: all that the package itself adds to the
tables, and a given part of what was there before.
-/

namespace Unclosed

variable {info : TypeInfo} {file : FileId} {idents : List Ident}

/-- The surroundings of one package: the tables before it is checked and what
it may see of them. -/
structure Horizon where
  package : String
  types : TypeTable
  symbols : SymbolTable
  sees : TypeId → Prop
  knows : SymbolId → Prop
  /-- What the identifiers of the package's files do. -/
  role : Site → Role

namespace Horizon

def Seen (horizon : Horizon) (type : TypeId) : Prop :=
  horizon.types.size ≤ type.index ∨ horizon.sees type

def Known (horizon : Horizon) (symbol : SymbolId) : Prop :=
  horizon.symbols.size ≤ symbol.index ∨ horizon.knows symbol

def Reaches (horizon : Horizon) (count : Nat) (symbol : SymbolId) : Prop :=
  symbol.index < count ∧ horizon.Known symbol

theorem Reaches.mono {horizon : Horizon} {count larger : Nat} {symbol : SymbolId}
    (reaches : horizon.Reaches count symbol) (le : count ≤ larger) :
    horizon.Reaches larger symbol :=
  ⟨Nat.lt_of_lt_of_le reaches.1 le, reaches.2⟩

def Owns (horizon : Horizon) (type : TypeId) : Prop :=
  type = TypeTable.invalid ∨ horizon.types.size ≤ type.index

end Horizon

namespace SymbolTable

variable (table : SymbolTable)
include table

theorem get?_add (symbol : Symbol) (id : SymbolId) :
    (table.add symbol).2.get? id = if id.index = table.size then some symbol else table.get? id := by
  by_cases last : id.index = table.symbols.size <;>
    simp [add, get?, size, Array.getElem?_push, last]

theorem get?_modify (changed : SymbolId) (change : Symbol → Symbol) (id : SymbolId) :
    (table.modify changed change).get? id =
      if id = changed then (table.get? id).map change else table.get? id := by
  simp only [modify, get?, Array.getElem?_modify]
  by_cases same : id = changed
  · subst same
    simp
  · have apart : changed.index ≠ id.index := fun equal =>
      same (by cases id; cases changed; cases equal; rfl)
    simp [same, apart]

theorem add_size (symbol : Symbol) : (table.add symbol).2.size = table.size + 1 := by
  simp [add, size]

theorem modify_size (id : SymbolId) (change : Symbol → Symbol) :
    (table.modify id change).size = table.size := by
  simp [modify, size]

end SymbolTable

/-! ### States within a horizon -/

/-- All that a state records lies within a horizon. -/
structure Confined (horizon : Horizon) (state : TypingState) : Prop where
  types_le : horizon.types.size ≤ state.types.size
  symbols_le : horizon.symbols.size ≤ state.symbols.size
  closed : state.types.Closed horizon.Seen
  methods : ∀ type, horizon.Seen type → ∀ method ∈ (state.types.get type).methods,
    horizon.Reaches state.symbols.size method.symbol
  symbolTypes : ∀ id symbol, horizon.Known id → state.symbols.get? id = some symbol →
    horizon.Seen symbol.type
  /-- The package defines only declarations of its own. -/
  defs : ∀ site id, (site, id) ∈ state.info.defs.entries →
    horizon.symbols.size ≤ id.index ∧ id.index < state.symbols.size
  /-- What is declared as a new type never stands for a type from before. -/
  newTypes : ∀ site id symbol, (site, id) ∈ state.info.defs.entries →
    horizon.role site = .newType → state.symbols.get? id = some symbol → horizon.Owns symbol.type
  apart : ∀ first second id, (first, id) ∈ state.info.defs.entries →
    (second, id) ∈ state.info.defs.entries →
    (horizon.role first = .newType ↔ horizon.role second = .newType)
  uses : ∀ site id, (site, id) ∈ state.info.uses.entries →
    horizon.Reaches state.symbols.size id ∧ horizon.role site ≠ .function
  selections : ∀ site selection, (site, selection) ∈ state.info.selections.entries →
    selection.Within (fun _ => True) (horizon.Reaches state.symbols.size)

/-! ### Records -/

namespace TypeInfo

def Types (info : TypeInfo) (file : FileId) (expr : Expr) : Prop :=
  ∃ type, (⟨file, expr.span⟩, type) ∈ info.types.entries

def Names (info : TypeInfo) (file : FileId) (idents : List Ident) : Prop :=
  ∀ ident ∈ idents, ident.isBlank = false →
    ∃ id, (⟨file, ident.span⟩, id) ∈ info.defs.entries ∨
      (⟨file, ident.span⟩, id) ∈ info.uses.entries

theorem Names.of_single (known : ∀ ident ∈ idents, info.Names file [ident]) :
    info.Names file idents :=
  fun ident member => known ident member ident (List.mem_singleton_self ident)

theorem names_nil (info : TypeInfo) (file : FileId) : info.Names file [] := by
  simp [Names]

theorem names_append {first second : List Ident} :
    info.Names file (first ++ second) ↔ info.Names file first ∧ info.Names file second :=
  List.forall_mem_append

end TypeInfo

/-! ### Edits -/

inductive Edit (horizon : Horizon) : TypingState → TypingState → Prop
  | alloc (state : TypingState) {kind : TypeKind}
      (parts : ∀ part ∈ kind.parts, horizon.Seen part) (bare : kind.methods = [])
      (own : ∀ type, kind = .named type → type.package = horizon.package) :
      Edit horizon state { state with types := (state.types.alloc kind).2 }
  | pointer (state : TypingState) {elem : TypeId} (sees : horizon.Seen elem) :
      Edit horizon state { state with types := (state.types.pointerTo elem).2 }
  | slice (state : TypingState) {elem : TypeId} (sees : horizon.Seen elem) :
      Edit horizon state { state with types := (state.types.sliceOf elem).2 }
  | underlie (state : TypingState) {type underlying : TypeId} (owns : horizon.Owns type)
      (sees : horizon.Seen underlying) :
      Edit horizon state { state with types := state.types.setUnderlying type underlying }
  | method (state : TypingState) {type : TypeId} {method : Method}
      (sees : horizon.Seen method.signature)
      (own : horizon.symbols.size ≤ method.symbol.index)
      (lt : method.symbol.index < state.symbols.size) :
      Edit horizon state { state with types := state.types.addMethod type method }
  | symbol (state : TypingState) {symbol : Symbol} (own : symbol.package = horizon.package)
      (sees : horizon.Seen symbol.type) :
      Edit horizon state { state with symbols := (state.symbols.add symbol).2 }
  | retype (state : TypingState) {id : SymbolId} {type : TypeId}
      (own : horizon.symbols.size ≤ id.index) (sees : horizon.Seen type)
      (kept : ∀ site, (site, id) ∈ state.info.defs.entries → horizon.role site = .newType →
        horizon.Owns type) :
      Edit horizon state
        { state with symbols := state.symbols.modify id fun entry => { entry with type } }
  | define (state : TypingState) {site : Site} {id : SymbolId}
      (own : horizon.symbols.size ≤ id.index) (lt : id.index < state.symbols.size)
      (kept : ∀ symbol, horizon.role site = .newType → state.symbols.get? id = some symbol →
        horizon.Owns symbol.type)
      (apart : ∀ other, (other, id) ∈ state.info.defs.entries →
        (horizon.role other = .newType ↔ horizon.role site = .newType)) :
      Edit horizon state
        { state with info := { state.info with defs := state.info.defs.insert site id } }
  | use (state : TypingState) {site : Site} {id : SymbolId}
      (reaches : horizon.Reaches state.symbols.size id) (role : horizon.role site ≠ .function) :
      Edit horizon state
        { state with info := { state.info with uses := state.info.uses.insert site id } }
  | select (state : TypingState) {site : Site} {selection : Selection}
      (within : selection.Within (fun _ => True) (horizon.Reaches state.symbols.size)) :
      Edit horizon state
        { state with
          info := { state.info with selections := state.info.selections.insert site selection } }
  /-- Types of expressions are only added; defects and the like are free. -/
  | note (state : TypingState) (types : SiteMap TypeId) (errors : List TypeError)
      (typeSites : List Site) (iota : Option Nat)
      (kept : state.info.types.entries ⊆ types.entries) :
      Edit horizon state { state with info := { state.info with types, errors }, typeSites, iota }

namespace Edit

variable {horizon : Horizon} {state next : TypingState}

section

variable (edit : Edit horizon state next)
include edit

theorem symbols_le : state.symbols.size ≤ next.symbols.size := by
  cases edit with
  | symbol => simp [SymbolTable.add_size]
  | retype => simp [SymbolTable.modify_size]
  | _ => exact Nat.le_refl _

theorem defs_subset : state.info.defs.entries ⊆ next.info.defs.entries := by
  cases edit with
  | define => exact List.subset_cons_self _ _
  | _ => exact List.Subset.refl _

theorem uses_subset : state.info.uses.entries ⊆ next.info.uses.entries := by
  cases edit with
  | use => exact List.subset_cons_self _ _
  | _ => exact List.Subset.refl _

theorem types_subset : state.info.types.entries ⊆ next.info.types.entries := by
  cases edit with
  | note types errors typeSites iota kept => exact kept
  | _ => exact List.Subset.refl _

end

/-- A step of the type table that adds at most one type without methods. -/
theorem confined_add {types : TypeTable} {kind : TypeKind} (confined : Confined horizon state)
    (closed : types.Closed horizon.Seen) (bare : kind.methods = [])
    (cases : types = state.types ∨ types.kinds = (state.types.alloc kind).2.kinds) :
    Confined horizon { state with types } := by
  rcases cases with rfl | added
  · exact confined
  · have get (type : TypeId) : types.get type = (state.types.alloc kind).2.get type := by
      unfold TypeTable.get
      rw [added]
    have size : types.size = state.types.size + 1 := by
      rw [← TypeTable.alloc_size state.types kind]
      unfold TypeTable.size
      rw [added]
    exact
      { confined with
        types_le := by
          have := confined.types_le
          simp only [size]
          omega
        closed
        methods := by
          intro type sees method member
          simp only [get, TypeTable.get_alloc] at member
          split at member
          · simp [bare] at member
          · exact confined.methods type sees method member }

theorem confined (edit : Edit horizon state next) (confined : Confined horizon state) :
    Confined horizon next := by
  have fresh : horizon.Seen ⟨state.types.size⟩ := .inl confined.types_le
  cases edit with
  | alloc parts bare own => exact confined_add confined (confined.closed.alloc parts) bare (.inr rfl)
  | pointer sees =>
    exact confined_add confined (confined.closed.pointerTo sees fresh).1 rfl
      (state.types.pointerTo_cases _)
  | slice sees =>
    exact confined_add confined (confined.closed.sliceOf sees fresh).1 rfl
      (state.types.sliceOf_cases _)
  | underlie owns sees =>
    exact
      { confined with
        types_le := Nat.le_trans confined.types_le
          (Nat.le_of_eq (TypeTable.modifyNamed_size _ _ _).symm)
        closed := confined.closed.setUnderlying sees
        methods := by
          intro type seesType method member
          have before := confined.methods type seesType method
          unfold TypeTable.setUnderlying at member
          rw [TypeTable.get_modifyNamed] at member
          split at member
          · next kind =>
            rw [kind] at before
            split at member <;> exact before member
          · exact before member }
  | method sees own lt =>
    exact
      { confined with
        types_le := Nat.le_trans confined.types_le
          (Nat.le_of_eq (TypeTable.modifyNamed_size _ _ _).symm)
        closed := confined.closed.addMethod sees
        methods := by
          intro type seesType other member
          have before := confined.methods type seesType other
          unfold TypeTable.addMethod at member
          rw [TypeTable.get_modifyNamed] at member
          split at member
          · next named kind =>
            rw [kind] at before
            split at member
            · simp only [TypeKind.methods, List.mem_append, List.mem_singleton] at member
              rcases member with member | rfl
              · exact before member
              · exact ⟨lt, .inl own⟩
            · exact before member
          · exact before member }
  | @symbol symbol own sees =>
    have grows : state.symbols.size ≤ (state.symbols.add symbol).2.size := by
      simp [SymbolTable.add_size]
    -- No declaration is recorded under the new place yet.
    have unused (site : Site) (id : SymbolId) (member : (site, id) ∈ state.info.defs.entries) :
        id.index ≠ state.symbols.size := Nat.ne_of_lt (confined.defs site id member).2
    exact
      { confined with
        symbols_le := Nat.le_trans confined.symbols_le grows
        methods := fun type seesType method member =>
          (confined.methods type seesType method member).mono grows
        symbolTypes := by
          intro id entry knows found
          rw [SymbolTable.get?_add] at found
          split at found
          · cases found
            exact sees
          · exact confined.symbolTypes id entry knows found
        defs := fun site id member =>
          ⟨(confined.defs site id member).1,
           Nat.lt_of_lt_of_le (confined.defs site id member).2 grows⟩
        newTypes := by
          intro site id entry member role found
          rw [SymbolTable.get?_add, if_neg (unused site id member)] at found
          exact confined.newTypes site id entry member role found
        uses := fun site id member =>
          ⟨(confined.uses site id member).1.mono grows, (confined.uses site id member).2⟩
        selections := fun site selection member =>
          (confined.selections site selection member).mono fun _ reaches => reaches.mono grows }
  | @retype id type own sees kept =>
    have same : (state.symbols.modify id fun entry => { entry with type }).size
        = state.symbols.size := SymbolTable.modify_size _ _ _
    exact
      { confined with
        symbols_le := by rw [same]; exact confined.symbols_le
        methods := by rw [same]; exact confined.methods
        symbolTypes := by
          intro other entry knows found
          rw [SymbolTable.get?_modify] at found
          split at found
          · obtain ⟨before, _, rfl⟩ := Option.map_eq_some_iff.mp found
            exact sees
          · exact confined.symbolTypes other entry knows found
        defs := by rw [same]; exact confined.defs
        newTypes := by
          intro site other entry member role found
          rw [SymbolTable.get?_modify] at found
          split at found
          · next equal =>
            subst equal
            obtain ⟨before, _, rfl⟩ := Option.map_eq_some_iff.mp found
            exact kept site member role
          · exact confined.newTypes site other entry member role found
        uses := by rw [same]; exact confined.uses
        selections := by rw [same]; exact confined.selections }
  | define own lt kept apart =>
    exact
      { confined with
        defs := by
          intro site id member
          rcases List.mem_cons.mp member with equal | member
          · cases equal
            exact ⟨own, lt⟩
          · exact confined.defs site id member
        newTypes := by
          intro site id entry member role found
          rcases List.mem_cons.mp member with equal | member
          · cases equal
            exact kept entry role found
          · exact confined.newTypes site id entry member role found
        apart := by
          intro first second id inFirst inSecond
          rcases List.mem_cons.mp inFirst with equal | inFirst
          · cases equal
            rcases List.mem_cons.mp inSecond with equal | inSecond
            · cases equal
              rfl
            · exact (apart second inSecond).symm
          · rcases List.mem_cons.mp inSecond with equal | inSecond
            · cases equal
              exact apart first inFirst
            · exact confined.apart first second id inFirst inSecond }
  | use reaches role =>
    exact
      { confined with
        uses := by
          intro site id member
          rcases List.mem_cons.mp member with equal | member
          · cases equal
            exact ⟨reaches, role⟩
          · exact confined.uses site id member }
  | select within =>
    exact
      { confined with
        selections := by
          intro site selection member
          rcases List.mem_cons.mp member with equal | member
          · cases equal
            exact within
          · exact confined.selections site selection member }
  | note types errors typeSites iota kept => exact { confined with }

end Edit

def Edits (horizon : Horizon) : TypingState → TypingState → Prop :=
  Relation.ReflTransGen (Edit horizon)

namespace Edits

variable {horizon : Horizon} {state middle next : TypingState}

theorem refl (state : TypingState) : Edits horizon state state := Relation.ReflTransGen.refl

theorem single (edit : Edit horizon state next) : Edits horizon state next :=
  Relation.ReflTransGen.single edit

theorem trans (first : Edits horizon state middle) (second : Edits horizon middle next) :
    Edits horizon state next :=
  Relation.ReflTransGen.trans first second

variable (edits : Edits horizon state next)
include edits

theorem symbols_le : state.symbols.size ≤ next.symbols.size := by
  induction edits with
  | refl => exact Nat.le_refl _
  | tail _ edit ih => exact Nat.le_trans ih edit.symbols_le

theorem defs_subset : state.info.defs.entries ⊆ next.info.defs.entries := by
  induction edits with
  | refl => exact List.Subset.refl _
  | tail _ edit ih => exact List.Subset.trans ih edit.defs_subset

theorem uses_subset : state.info.uses.entries ⊆ next.info.uses.entries := by
  induction edits with
  | refl => exact List.Subset.refl _
  | tail _ edit ih => exact List.Subset.trans ih edit.uses_subset

theorem types_subset : state.info.types.entries ⊆ next.info.types.entries := by
  induction edits with
  | refl => exact List.Subset.refl _
  | tail _ edit ih => exact List.Subset.trans ih edit.types_subset

theorem confined (confined : Confined horizon state) : Confined horizon next := by
  induction edits with
  | refl => exact confined
  | tail _ edit ih => exact edit.confined ih

variable {file : FileId}

theorem types {expr : Expr} (known : state.info.Types file expr) : next.info.Types file expr :=
  known.imp fun _ member => edits.types_subset member

theorem names (known : state.info.Names file idents) : next.info.Names file idents :=
  fun ident member named => (known ident member named).imp fun _ recorded =>
    recorded.imp (edits.defs_subset ·) (edits.uses_subset ·)

end Edits

/-! ### Actions within a horizon -/

/-- From every state that edits of `base` lead to, an action makes edits only,
and its result is as described. -/
def Proceeds {α : Type} (horizon : Horizon) (base : TypingState) (action : StateM TypingState α)
    (post : TypingState → α → Prop) : Prop :=
  ∀ state, Edits horizon base state → Confined horizon state →
    Edits horizon state (action.run state).2 ∧ post (action.run state).2 (action.run state).1

namespace Proceeds

variable {α β : Type} {horizon : Horizon} {base : TypingState} {action : StateM TypingState α}
  {next : α → StateM TypingState β} {post : TypingState → β → Prop}

theorem bind {middle : TypingState → α → Prop} (first : Proceeds horizon base action middle)
    (second : ∀ value later, Edits horizon base later → middle later value →
      Proceeds horizon later (next value) post) :
    Proceeds horizon base (action >>= next) post := by
  intro state reached confined
  obtain ⟨edits, holds⟩ := first state reached confined
  obtain ⟨later, result⟩ := second _ _ (reached.trans edits) holds _ (.refl _)
    (edits.confined confined)
  exact ⟨edits.trans later, result⟩

theorem mono {action : StateM TypingState β} {later : TypingState}
    (proceeds : Proceeds horizon base action post) (edits : Edits horizon base later) :
    Proceeds horizon later action post :=
  fun state reached => proceeds state (edits.trans reached)

theorem seq {middle : α → Prop} (first : Proceeds horizon base action fun _ => middle)
    (second : ∀ value, middle value → Proceeds horizon base (next value) post) :
    Proceeds horizon base (action >>= next) post :=
  first.bind fun value _ edits holds => (second value holds).mono edits

theorem pure {value : β} (holds : ∀ state, Edits horizon base state → post state value) :
    Proceeds horizon base (Pure.pure value) post :=
  fun state reached _ => ⟨.refl state, holds state reached⟩

theorem weaken {action : StateM TypingState β} {middle : TypingState → β → Prop}
    (proceeds : Proceeds horizon base action middle)
    (weaker : ∀ state value, Edits horizon base state → middle state value → post state value) :
    Proceeds horizon base action post := by
  intro state reached confined
  obtain ⟨edits, holds⟩ := proceeds state reached confined
  exact ⟨edits, weaker _ _ (reached.trans edits) holds⟩

end Proceeds

def Horizon.regime (horizon : Horizon) (environment : Environment) :
    Typing.Regime environment where
  Step := Edits horizon
  Sound := Confined horizon
  refl := Edits.refl
  trans := Edits.trans
  sound := Edits.confined

end Unclosed
