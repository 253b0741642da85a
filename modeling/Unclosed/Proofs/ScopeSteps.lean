import Mathlib.Data.List.Forall2
import Unclosed.Proofs.TypingEdits
import Unclosed.Proofs.TypingRegimes

/-!
What the steps of type checking leave alone.  Checking a node adds declarations
behind those that are there and writes records at the places of the node's own
identifiers.  A step that answers a scope has only added names of new
declarations to the innermost block.
-/

namespace Unclosed

variable {α β : Type} {id : SymbolId} {name : String}

theorem SiteMap.get?_insert (map : SiteMap α) (site other : Site) (value : α) :
    (map.insert site value).get? other = if other = site then some value else map.get? other := by
  by_cases same : other = site
  · simp [get?, insert, same]
  · have apart : (other == site) = false := by simpa using same
    simp [get?, insert, List.lookup_cons, apart, same]

theorem SymbolTable.modify_add (table : SymbolTable) (symbol : Symbol) (change : Symbol → Symbol) :
    (table.add symbol).2.modify ⟨table.size⟩ change = (table.add (change symbol)).2 := by
  simp only [add, modify, size, SymbolTable.mk.injEq]
  apply Array.ext_getElem?
  intro index
  rw [Array.getElem?_modify, Array.getElem?_push, Array.getElem?_push]
  by_cases last : index = table.symbols.size
  · simp [last]
  · simp [last, Ne.symm last]

def Symbol.ofLocal (environment : Environment) (kind : SymbolKind) (ident : Ident) (type : TypeId) :
    Symbol :=
  ⟨kind, ident.name, type, some ⟨environment.file, ident.span⟩, environment.package, false, none,
   none⟩

/-! ### States -/

namespace TypingState

/-- Declarations stay where they are, and records change only at the given
sites.  A declaration keeps its type as well if `typed` holds. -/
structure Keeps (sites : Site → Prop) (typed : Prop) (state next : TypingState) : Prop where
  symbols_le : state.symbols.size ≤ next.symbols.size
  symbols : ∀ id symbol, state.symbols.get? id = some symbol →
    ∃ type, next.symbols.get? id = some { symbol with type } ∧ (typed → type = symbol.type)
  defs : ∀ site, ¬sites site → next.info.defs.get? site = state.info.defs.get? site
  uses : ∀ site, ¬sites site → next.info.uses.get? site = state.info.uses.get? site
  /-- A site that declares something else than before declares something new. -/
  fresh : ∀ site, next.info.defs.get? site = state.info.defs.get? site ∨
    ∃ id, next.info.defs.get? site = some id ∧
      state.symbols.size ≤ id.index ∧ id.index < next.symbols.size

namespace Keeps

variable {sites : Site → Prop} {typed : Prop} {base state next : TypingState}

theorem note (symbols : next.symbols = state.symbols) (defs : next.info.defs = state.info.defs)
    (uses : next.info.uses = state.info.uses) : state.Keeps sites typed next where
  symbols_le := by rw [symbols]
  symbols id symbol found := ⟨symbol.type, by rw [symbols, found], fun _ => rfl⟩
  defs site _ := by rw [defs]
  uses site _ := by rw [uses]
  fresh site := .inl (by rw [defs])

theorem refl (state : TypingState) : state.Keeps sites typed state := note rfl rfl rfl

theorem trans (first : base.Keeps sites typed state) (second : state.Keeps sites typed next) :
    base.Keeps sites typed next where
  symbols_le := Nat.le_trans first.symbols_le second.symbols_le
  symbols id symbol found := by
    obtain ⟨middle, inState, sameMiddle⟩ := first.symbols id symbol found
    obtain ⟨type, inNext, same⟩ := second.symbols id _ inState
    exact ⟨type, inNext, fun holds => (same holds).trans (sameMiddle holds)⟩
  defs site outside := (second.defs site outside).trans (first.defs site outside)
  uses site outside := (second.uses site outside).trans (first.uses site outside)
  fresh site := by
    rcases second.fresh site with same | ⟨id, found, new, below⟩
    · rw [same]
      rcases first.fresh site with same | ⟨id, found, new, below⟩
      · exact .inl same
      · exact .inr ⟨id, found, new, Nat.lt_of_lt_of_le below second.symbols_le⟩
    · exact .inr ⟨id, found, Nat.le_trans first.symbols_le new, below⟩

theorem use {site : Site} (inside : sites site) (id : SymbolId) :
    state.Keeps sites typed
      { state with info := { state.info with uses := state.info.uses.insert site id } } :=
  { refl state with
    uses := fun other outside => by
      have apart : other ≠ site := fun same => outside (same ▸ inside)
      rw [SiteMap.get?_insert, if_neg apart] }

theorem add (symbol : Symbol) :
    state.Keeps sites typed { state with symbols := (state.symbols.add symbol).2 } :=
  { (refl state : state.Keeps sites typed state) with
    symbols_le := by simp [SymbolTable.add_size]
    symbols := fun id entry found => by
      have below : id.index < state.symbols.size :=
        (Array.getElem?_eq_some_iff.mp found).1
      refine ⟨entry.type, ?_, fun _ => rfl⟩
      rw [SymbolTable.get?_add, if_neg (Nat.ne_of_lt below), found]
    fresh := fun _ => .inl rfl }

/-- A site is tied to what it was tied to at first, or to a new declaration. -/
theorem define (kept : base.Keeps sites typed state) {site : Site} (inside : sites site)
    (known : base.info.defs.get? site = some id ∨
      base.symbols.size ≤ id.index ∧ id.index < state.symbols.size) :
    base.Keeps sites typed
      { state with info := { state.info with defs := state.info.defs.insert site id } } :=
  { kept with
    defs := fun other outside => by
      have apart : other ≠ site := fun same => outside (same ▸ inside)
      rw [SiteMap.get?_insert, if_neg apart, kept.defs other outside]
    fresh := fun other => by
      rw [SiteMap.get?_insert]
      split
      · next same =>
        subst same
        rcases known with same | new
        · exact .inl same.symm
        · exact .inr ⟨id, rfl, new⟩
      · exact kept.fresh other }

theorem settle (kept : base.Keeps sites typed state) (new : typed → base.symbols.size ≤ id.index)
    (type : TypeId) :
    base.Keeps sites typed
      { state with symbols := state.symbols.modify id fun entry => { entry with type } } :=
  { kept with
    symbols_le := by
      rw [SymbolTable.modify_size]
      exact kept.symbols_le
    symbols := fun other entry found => by
      obtain ⟨before, inState, same⟩ := kept.symbols other entry found
      have below : other.index < base.symbols.size := (Array.getElem?_eq_some_iff.mp found).1
      rw [SymbolTable.get?_modify]
      split
      · next equal =>
        refine ⟨type, by rw [inState]; rfl, fun holds => ?_⟩
        subst equal
        exact absurd below (Nat.not_lt.mpr (new holds))
      · exact ⟨before, inState, same⟩
    fresh := fun site => by
      rw [SymbolTable.modify_size]
      exact kept.fresh site }

/-- A site that is tied to one of the declarations stays tied to one. -/
theorem tied (kept : state.Keeps sites typed next) {site : Site}
    (found : state.info.defs.get? site = some id) {low : Nat} (low_le : low ≤ id.index)
    (below : id.index < state.symbols.size) :
    ∃ id, next.info.defs.get? site = some id ∧ low ≤ id.index ∧ id.index < next.symbols.size := by
  rcases kept.fresh site with same | ⟨other, found, new, otherBelow⟩
  · exact ⟨id, same.trans found, low_le, Nat.lt_of_lt_of_le below kept.symbols_le⟩
  · exact ⟨other, found, by omega, otherBelow⟩

end Keeps

def declared (state : TypingState) (site : Site) (symbol : Symbol) : TypingState :=
  { state with
    symbols := (state.symbols.add symbol).2
    info := { state.info with defs := state.info.defs.insert site ⟨state.symbols.size⟩ } }

section Declared

variable (state : TypingState) (site : Site) (symbol : Symbol)

@[simp]
theorem declared_size : (state.declared site symbol).symbols.size = state.symbols.size + 1 :=
  SymbolTable.add_size _ _

@[simp]
theorem declared_defs :
    (state.declared site symbol).info.defs.get? site = some ⟨state.symbols.size⟩ := by
  rw [declared, SiteMap.get?_insert, if_pos rfl]

@[simp]
theorem declared_symbol :
    (state.declared site symbol).symbols.get? ⟨state.symbols.size⟩ = some symbol := by
  rw [declared, SymbolTable.get?_add, if_pos rfl]

theorem Keeps.declared {sites : Site → Prop} {typed : Prop} {site : Site} (inside : sites site) :
    state.Keeps sites typed (state.declared site symbol) := by
  refine (Keeps.add symbol).define inside (.inr ⟨Nat.le_refl _, ?_⟩)
  simp [SymbolTable.add_size]

end Declared

/-- The binding leads to the declaration of the identifier, which is not among
the first `low` ones. -/
structure Declares (file : FileId) (low : Nat) (state : TypingState) (entry : String × SymbolId)
    (ident : Ident) : Prop where
  name : entry.1 = ident.name
  low_le : low ≤ entry.2.index
  symbol : ∃ symbol, state.symbols.get? entry.2 = some symbol ∧
    symbol.name = ident.name ∧ symbol.decl = some ⟨file, ident.span⟩

namespace Declares

variable {sites : Site → Prop} {typed : Prop} {state next : TypingState} {file : FileId}
  {low : Nat} {entry : String × SymbolId} {ident : Ident}

variable (declares : state.Declares file low entry ident)
include declares

theorem mono (kept : state.Keeps sites typed next) : next.Declares file low entry ident := by
  obtain ⟨symbol, found, name, decl⟩ := declares.symbol
  obtain ⟨type, kept, _⟩ := kept.symbols _ symbol found
  exact ⟨declares.name, declares.low_le, _, kept, name, decl⟩

theorem lower {first : Nat} (le : first ≤ low) : state.Declares file first entry ident :=
  { declares with low_le := Nat.le_trans le declares.low_le }

theorem below : entry.2.index < state.symbols.size := by
  obtain ⟨symbol, found, _⟩ := declares.symbol
  exact (Array.getElem?_eq_some_iff.mp found).1

end Declares

end TypingState

/-! ### Scopes -/

namespace Scope

variable (scope : Scope) (added : Bindings)

@[simp]
theorem extend_leave : (scope.extend added).leave = scope.leave := by
  obtain ⟨package, files, blocks, results⟩ := scope
  cases blocks <;> rfl

@[simp]
theorem extend_depth : (scope.extend added).blocks.length = scope.blocks.length := by
  obtain ⟨package, files, blocks, results⟩ := scope
  cases blocks <;> rfl

theorem extend_lookup (absent : ∀ entry ∈ added, entry.1 ≠ name) :
    (scope.extend added).lookup name = scope.lookup name := by
  obtain ⟨package, files, blocks, results⟩ := scope
  cases blocks with
  | nil => rfl
  | cons innermost outer =>
    have unbound : added.lookup name = none := by
      rw [List.lookup_eq_none_iff]
      intro entry member
      simpa using fun same => absent entry member same.symm
    simp [extend, Scope.lookup, List.findSome?_cons, List.lookup_append, unbound]

theorem extend_names (inner : scope.isPackage = false) :
    (scope.extend added).names = added.map Prod.fst ++ scope.names := by
  obtain ⟨package, files, blocks, results⟩ := scope
  cases blocks with
  | nil => cases inner
  | cons innermost outer => simp [extend, names]

/-- What the scope behind binds beyond the scope before: the declarations of
new identifiers of the innermost block.  Nothing is bound outside of all bodies. -/
def Gains (file : FileId) (adds : List String → List Ident) (state next : TypingState)
    (scope bound : Scope) : Prop :=
  ∃ added : Bindings, bound = scope.extend added ∧ (scope.isPackage = false →
    List.Forall₂ (next.Declares file state.symbols.size) added (adds scope.names))

end Scope

namespace Scope.Gains

variable {sites : Site → Prop} {typed : Prop} {file : FileId}
  {adds later : List String → List Ident} {before state next : TypingState}
  {scope inner bound : Scope}

theorem declared_names {low : Nat} {added : Bindings} {idents : List Ident}
    (declares : List.Forall₂ (next.Declares file low) added idents) :
    added.map Prod.fst = idents.map Ident.name := by
  rw [← List.forall₂_eq_eq_eq, List.forall₂_map_left_iff, List.forall₂_map_right_iff]
  exact declares.imp fun _ _ known => known.name

theorem refl (scope : Scope) (state next : TypingState) :
    scope.Gains file (fun _ => []) state next scope :=
  ⟨[], by simp, fun _ => .nil⟩

variable (gains : scope.Gains file adds state next bound)
include gains

theorem grows : scope.Grows bound := by
  obtain ⟨added, same, _⟩ := gains
  exact ⟨added, same⟩

theorem leave : bound.leave = scope.leave := by
  obtain ⟨added, rfl, _⟩ := gains
  exact scope.extend_leave added

theorem depth : bound.blocks.length = scope.blocks.length := by
  obtain ⟨added, rfl, _⟩ := gains
  exact scope.extend_depth added

theorem stays (none : adds scope.names = []) : bound = scope := by
  obtain ⟨added, rfl, declares⟩ := gains
  cases package : scope.isPackage with
  | true => exact scope.extend_package added package
  | false =>
    have empty := declares package
    rw [none, List.forall₂_nil_right_iff] at empty
    rw [empty, scope.extend_nil]

theorem lookup (absent : name ∉ (adds scope.names).map Ident.name) :
    bound.lookup name = scope.lookup name := by
  obtain ⟨added, rfl, declares⟩ := gains
  cases package : scope.isPackage with
  | true => rw [scope.extend_package added package]
  | false =>
    refine scope.extend_lookup added fun entry member same => absent ?_
    rw [← declared_names (declares package), ← same]
    exact List.mem_map_of_mem member

omit gains in
theorem trans (first : scope.Gains file adds before state inner)
    (second : inner.Gains file later state next bound)
    (kept : before.Keeps sites typed state) (keptLater : state.Keeps sites typed next) :
    scope.Gains file (thenAdds adds later) before next bound := by
  obtain ⟨old, rfl, declares⟩ := first
  obtain ⟨new, rfl, declaresLater⟩ := second
  refine ⟨new ++ old, scope.extend_extend _ _, fun inside => ?_⟩
  rw [Scope.extend_isPackage, scope.extend_names old inside, declared_names (declares inside)]
    at declaresLater
  exact List.rel_append ((declaresLater inside).imp fun _ _ known => known.lower kept.symbols_le)
    ((declares inside).imp fun _ _ known => known.mono keptLater)

omit gains in
theorem mono (gains : scope.Gains file adds before state bound)
    (kept : state.Keeps sites typed next) : scope.Gains file adds before next bound := by
  obtain ⟨added, rfl, declares⟩ := gains
  exact ⟨added, rfl, fun inside => (declares inside).imp fun _ _ known => known.mono kept⟩

theorem lower (kept : before.Keeps sites typed state) :
    scope.Gains file adds before next bound := by
  obtain ⟨added, rfl, declares⟩ := gains
  exact ⟨added, rfl, fun inside =>
    (declares inside).imp fun _ _ known => known.lower kept.symbols_le⟩

/-- Only what is added to the names of the scope itself matters. -/
theorem congr (same : scope.isPackage = false → adds scope.names = later scope.names) :
    scope.Gains file later state next bound := by
  obtain ⟨added, rfl, declares⟩ := gains
  exact ⟨added, rfl, fun inside => same inside ▸ declares inside⟩

end Scope.Gains

/-! ### Places -/

def Environment.Marks (environment : Environment) (sites : Site → Prop)
    (mentions : List Mention) : Prop :=
  ∀ mention ∈ mentions, sites ⟨environment.file, mention.span⟩

namespace Environment

def places (environment : Environment) (mentions : List Mention) (site : Site) : Prop :=
  ∃ mention ∈ mentions, site = ⟨environment.file, mention.span⟩

variable {environment : Environment} {sites : Site → Prop}

theorem marks_places (mentions : List Mention) :
    environment.Marks (environment.places mentions) mentions :=
  fun mention member => ⟨mention, member, rfl⟩

@[simp]
theorem marks_append {first second : List Mention} :
    environment.Marks sites (first ++ second) ↔
      environment.Marks sites first ∧ environment.Marks sites second :=
  List.forall_mem_append

end Environment

namespace Typing

variable {environment : Environment} {sites : Site → Prop} {typed : Prop} {scope : Scope}

theorem run_bind (action : Typing α) (next : α → Typing β) (state : TypingState) :
    (((action >>= next).run environment).run state) =
      ((next ((action.run environment).run state).1).run environment).run
        ((action.run environment).run state).2 := rfl

theorem runIn_bind (action : Checker α) (next : α → Checker β) (state : TypingState) :
    (action >>= next).runIn environment scope state =
      (next (action.runIn environment scope state).1.1).runIn environment
        (action.runIn environment scope state).1.2 (action.runIn environment scope state).2 := rfl

theorem runIn_lift (action : Typing α) (state : TypingState) :
    (liftM action : Checker α).runIn environment scope state =
      ((((action.run environment).run state).1, scope), ((action.run environment).run state).2) :=
  rfl

theorem runIn_get (state : TypingState) :
    (get : Checker Scope).runIn environment scope state = ((scope, scope), state) := rfl

theorem newLocal_run (ident : Ident) (type : TypeId) (kind : SymbolKind) (state : TypingState) :
    ∃ bound, ((newLocal ident type kind).run environment).run state = (⟨state.symbols.size⟩,
      state.declared ⟨environment.file, ident.span⟩ (.ofLocal environment kind ident bound)) := by
  have settled (bound : TypeId) :
      (((do
        let symbol ← declare kind ident false none
        setSymbolType symbol bound
        return symbol : Typing SymbolId).run environment).run state) = (⟨state.symbols.size⟩,
      state.declared ⟨environment.file, ident.span⟩ (.ofLocal environment kind ident bound)) := by
    refine Prod.ext rfl ?_
    change { state with
      symbols := (state.symbols.add _).2.modify ⟨state.symbols.size⟩ _
      info := _ } = _
    rw [SymbolTable.modify_add]
    rfl
  unfold newLocal
  split
  · exact ⟨type, settled type⟩
  · exact ⟨_, settled _⟩

theorem declareLocal_run (scope : Scope) {ident : Ident} (named : ident.isBlank = false)
    (type : TypeId) (kind : SymbolKind) (state : TypingState) :
    ∃ bound, (declareLocal ident type kind).runIn environment scope state =
      (((), scope.bind ident.name ⟨state.symbols.size⟩),
        state.declared ⟨environment.file, ident.span⟩ (.ofLocal environment kind ident bound)) := by
  obtain ⟨bound, ran⟩ := @newLocal_run environment ident type kind state
  have split : declareLocal ident type kind = (do
      let symbol ← newLocal ident type kind
      modify fun scope => scope.bind ident.name symbol) := by
    simp [declareLocal, named]
  refine ⟨bound, ?_⟩
  rw [split, runIn_bind, runIn_lift, ran]
  rfl

theorem declareLocal_keeps (typed : Prop) (scope : Scope) {ident : Ident}
    (inside : sites ⟨environment.file, ident.span⟩) (type : TypeId) (kind : SymbolKind)
    (state : TypingState) :
    state.Keeps sites typed ((declareLocal ident type kind).runIn environment scope state).2 ∧
      scope.Gains environment.file (fun _ => localNames [ident]) state
        ((declareLocal ident type kind).runIn environment scope state).2
        ((declareLocal ident type kind).runIn environment scope state).1.2 := by
  cases named : ident.isBlank with
  | true =>
    have stays : declareLocal ident type kind = pure () := by
      simp [declareLocal, named]
    rw [stays]
    exact ⟨.refl state, (Scope.Gains.refl scope state state).congr (by simp [localNames, named])⟩
  | false =>
    obtain ⟨bound, ran⟩ := declareLocal_run scope named type kind state
    rw [ran]
    refine ⟨.declared state _ inside, [_], scope.bind_eq_extend _ _, fun _ => ?_⟩
    have single : localNames [ident] = [ident] := by simp [localNames, named]
    rw [single]
    exact .cons ⟨rfl, Nat.le_refl _, _, state.declared_symbol _ _, rfl, rfl⟩ .nil

theorem declareTypeName_run (packageLevel : Bool) (name : Ident) (isAlias : Bool)
    (state : TypingState) :
    ∃ symbol types, ((declareTypeName packageLevel name isAlias).run environment).run state =
        (⟨state.symbols.size⟩,
          { state.declared ⟨environment.file, name.span⟩ symbol with types }) ∧
      ∃ type, symbol = ⟨.typeName, name.name, type, some ⟨environment.file, name.span⟩,
        environment.package, packageLevel, none, none⟩ := by
  cases isAlias with
  | true => exact ⟨_, _, rfl, _, rfl⟩
  | false =>
    refine ⟨_, (state.types.newNamed environment.package name.name).2, Prod.ext rfl ?_,
      (state.types.newNamed environment.package name.name).1, rfl⟩
    change { state with
      types := _
      symbols := (state.symbols.add _).2.modify ⟨state.symbols.size⟩ _
      info := _ } = _
    rw [SymbolTable.modify_add]
    rfl

theorem declareTypeName_keeps (typed : Prop) (packageLevel : Bool) {name : Ident} (isAlias : Bool)
    (inside : sites ⟨environment.file, name.span⟩) (state : TypingState) :
    ∃ next, ((declareTypeName packageLevel name isAlias).run environment).run state =
        (⟨state.symbols.size⟩, next) ∧
      state.Keeps sites typed next ∧
      next.Declares environment.file state.symbols.size (name.name, ⟨state.symbols.size⟩) name ∧
      next.info.defs.get? ⟨environment.file, name.span⟩ = some ⟨state.symbols.size⟩ := by
  obtain ⟨symbol, types, ran, type, built⟩ := declareTypeName_run packageLevel name isAlias state
  have kept : state.Keeps sites typed (state.declared ⟨environment.file, name.span⟩ symbol) :=
    .declared state symbol inside
  have found := state.declared_symbol ⟨environment.file, name.span⟩ symbol
  exact ⟨_, ran, kept.trans (.note rfl rfl rfl),
    ⟨rfl, Nat.le_refl _, symbol, found, by rw [built], by rw [built]⟩,
    state.declared_defs _ symbol⟩

theorem completeType_run {base state : TypingState} (kept : base.Keeps sites typed state)
    {name : Ident}
    (new : ∀ id, state.info.defs.get? ⟨environment.file, name.span⟩ = some id →
      base.symbols.size ≤ id.index) (isAlias : Bool) (type : TypeId) :
    ∃ next, ((completeType name isAlias type).run environment).run state = ((), next) ∧
      base.Keeps sites typed next ∧ state.Keeps sites False next ∧ next.info = state.info := by
  unfold completeType
  rw [run_definedBy?]
  cases found : state.info.defs.get? ⟨environment.file, name.span⟩ with
  | none => exact ⟨state, rfl, kept, .refl state, rfl⟩
  | some symbol =>
    cases isAlias with
    | true =>
      exact ⟨_, rfl, kept.settle (fun _ => new symbol found) type,
        (TypingState.Keeps.refl state).settle False.elim type, rfl⟩
    | false => exact ⟨_, rfl, kept.trans (.note rfl rfl rfl), .note rfl rfl rfl, rfl⟩

/-- Steps that keep declarations, and records at all but the given sites, obey the
laws of type checking. -/
def keeping (environment : Environment) (sites : Site → Prop) (typed : Prop) :
    Laws environment where
  Step := TypingState.Keeps sites typed
  Sound _ := True
  refl := .refl
  trans := .trans
  sound _ _ := trivial
  Seen _ := True
  Reaches _ _ := True
  Recorded _ _ := True
  Permits mention := sites ⟨environment.file, mention.span⟩
  Fits _ _ := True
  Settles := ¬typed
  Follows adds base scope state next := scope.Gains environment.file adds base state next
  reaches_mono _ _ := trivial
  recorded_mono _ _ := trivial
  recorded_blank _ := trivial
  fits_mono _ _ := trivial
  enter _ := trivial
  call _ _ := trivial
  results _ _ _ := trivial
  predeclared _ _ _ := trivial
  lookup _ _ := trivial
  innermost? _ _ := trivial
  imported _ _ _ := trivial
  stay _ _ := .refl _ _ _
  fits _ _ := trivial
  grows gains := gains.grows
  behind kept keptLater first second := first.trans second kept keptLater
  follows_mono kept gains := gains.mono kept
  follows_congr gains same := gains.congr same
  closed _ := ⟨fun _ _ _ _ => trivial, fun _ _ => trivial, fun _ _ _ _ => trivial,
    fun _ _ _ _ => trivial⟩
  fresh _ := trivial
  methods _ _ _ _ _ := trivial
  symbolType _ _ _ := trivial
  note _ := .note rfl rfl rfl
  alloc _ _ := .note rfl rfl rfl
  pointer _ := .note rfl rfl rfl
  slice _ := .note rfl rfl rfl
  use inside _ := .use inside _
  recorded_use := trivial
  select _ := .note rfl rfl rfl
  declareLocal {base scope ident type} inside _ _ kind := fun state reached _ => by
    obtain ⟨kept, gains⟩ := declareLocal_keeps typed scope inside type kind state
    exact ⟨kept, gains.lower reached, trivial⟩
  settle untyped _ _ _ _ := (TypingState.Keeps.refl _).settle (absurd · untyped) _
  redeclareLocal {base scope ident type} inside _ _ := by
    refine Regime.Moves.iff_runIn.mpr fun state _ _ => ?_
    obtain ⟨kept, gains⟩ := declareLocal_keeps typed scope inside type .var state
    have ran : (redeclareLocal ident type).runIn environment scope state =
        (do
          declareLocal ident type .var
          if let some symbol := state.info.defs.get? ⟨environment.file, ident.span⟩ then
            recordDef ident symbol : Checker Unit).runIn environment scope state := rfl
    rw [ran]
    cases previous : state.info.defs.get? ⟨environment.file, ident.span⟩ with
    | none => exact ⟨kept, trivial, gains.grows⟩
    | some symbol =>
      -- The record of the first declaration is put back behind the second one.
      exact ⟨kept.define inside (.inl previous), trivial, gains.grows⟩
  declareType {base scope name isAlias resolve} inside _ resolves := by
    refine Regime.Moves.iff_runIn.mpr fun state reached _ => ?_
    obtain ⟨start, ran, kept, declares, recorded⟩ :=
      declareTypeName_keeps typed scope.isPackage isAlias inside state
    let bound := scope.bind name.name ⟨state.symbols.size⟩
    obtain ⟨later, same, _⟩ := Regime.Moves.iff_runIn.mp (resolves start bound trivial) start
      (.refl start) trivial
    obtain ⟨id, found, new, _⟩ := later.tied recorded (Nat.le_refl _) declares.below
    have began : (declareType name isAlias resolve).runIn environment scope state =
        (do completeType name isAlias (← resolve) : Checker Unit).runIn environment bound start := by
      change (fun declared : SymbolId × TypingState =>
        (do completeType name isAlias (← resolve) : Checker Unit).runIn environment
          (scope.bind name.name declared.1) declared.2)
            (((declareTypeName scope.isPackage name isAlias).run environment).run state) = _
      rw [ran]
    rw [began, runIn_bind, runIn_lift]
    generalize resolve.runIn environment bound start = resolved at later same found ⊢
    obtain ⟨next, completed, keptAll, keptNames, _⟩ := completeType_run (kept.trans later)
      (fun other known => by rwa [← Option.some.inj (found.symm.trans known)]) isAlias resolved.1.1
    rw [completed, same]
    have gains : scope.Gains environment.file (fun _ => [name]) state next bound :=
      ⟨[_], scope.bind_eq_extend _ _, fun _ =>
        .cons ((declares.mono later).mono keptNames) .nil⟩
    exact ⟨keptAll, gains.lower reached⟩

/-! ### Actions -/

def Frames {α : Type} (environment : Environment) (sites : Site → Prop) (typed : Prop)
    (action : Checker α) : Prop :=
  ∀ (scope : Scope) (state : TypingState),
    state.Keeps sites typed (action.runIn environment scope state).2

def Binds {α : Type} (environment : Environment) (sites : Site → Prop) (typed : Prop)
    (adds : List String → List Ident) (action : Checker α) : Prop :=
  ∀ (scope : Scope) (state : TypingState),
    state.Keeps sites typed (action.runIn environment scope state).2 ∧
      scope.Gains environment.file adds state (action.runIn environment scope state).2
        (action.runIn environment scope state).1.2

theorem Frames.of_meets {action : Checker α}
    {post : TypingState → Scope → TypingState → α → Scope → Prop}
    (meets : ∀ base scope,
      (keeping environment sites typed).Moves base scope action (post base scope)) :
    Frames environment sites typed action :=
  fun scope state => (meets state scope state (.refl state) trivial).1

theorem Frames.bind {action : Checker α} {next : α → Checker β}
    (first : Frames environment sites typed action)
    (second : ∀ value, Frames environment sites typed (next value)) :
    Frames environment sites typed (action >>= next) :=
  fun scope state => (first scope state).trans (second _ _ _)

theorem Binds.of_meets {action : Checker α} {adds : List String → List Ident}
    (meets : ∀ base scope, (keeping environment sites typed).Moves base scope action
      fun state _ next => scope.Gains environment.file adds base state next) :
    Binds environment sites typed adds action :=
  fun scope state => meets state scope state (.refl state) trivial

theorem Binds.frames {action : Checker α} {adds : List String → List Ident}
    (binds : Binds environment sites typed adds action) :
    Frames environment sites typed action :=
  fun scope state => (binds scope state).1

end Typing

end Unclosed
