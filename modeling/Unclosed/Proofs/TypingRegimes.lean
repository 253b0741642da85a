import Unclosed.Proofs.Mentions
import Unclosed.Proofs.TypeClosure
import Unclosed.Typing.Package

/-!
What checking does to the state, from what its steps do.  A *regime* says which
changes of the state are allowed and which states they keep sound.  Its *laws*
say in addition which types, declarations and scopes the checking of a file may
meet, and that the primitive steps keep to that.  The rules of type checking
then keep to it as well.
-/

namespace Unclosed

variable {seen : TypeId → Prop} {selection : Selection} {condition : Prop} {α : Type}
  {ident name package : Ident} {symbol : SymbolId} {elem : TypeId}

/-! ### New names of a block -/

namespace Scope

variable (scope : Scope)

def names : List String := (scope.blocks.head?.getD []).map Prod.fst

theorem innermost?_eq_none_iff {name : String} :
    scope.innermost? name = none ↔ name ∉ scope.names := by
  obtain ⟨package, files, blocks, results⟩ := scope
  cases blocks with
  | nil => simp [innermost?, names]
  | cons innermost outer =>
    simp only [innermost?, names, List.head?_cons, Option.getD_some, List.lookup_eq_none_iff,
      List.mem_map, not_exists, not_and]
    constructor
    · intro apart entry member same
      simpa [same] using apart entry member
    · intro apart entry member
      simpa using fun same => apart entry member same.symm

/-- Add names to the innermost block; outside of all bodies there is none. -/
def extend (added : Bindings) : Scope :=
  match scope.blocks with
  | [] => scope
  | innermost :: outer => { scope with blocks := (added ++ innermost) :: outer }

variable (added : Bindings)

@[simp]
theorem extend_nil : scope.extend [] = scope := by
  obtain ⟨package, files, blocks, results⟩ := scope
  cases blocks <;> rfl

theorem extend_extend (later : Bindings) :
    (scope.extend added).extend later = scope.extend (later ++ added) := by
  obtain ⟨package, files, blocks, results⟩ := scope
  cases blocks <;> simp [extend]

theorem bind_eq_extend (name : String) (symbol : SymbolId) :
    scope.bind name symbol = scope.extend [(name, symbol)] := by
  obtain ⟨package, files, blocks, results⟩ := scope
  cases blocks <;> rfl

@[simp]
theorem extend_isPackage : (scope.extend added).isPackage = scope.isPackage := by
  obtain ⟨package, files, blocks, results⟩ := scope
  cases blocks <;> rfl

theorem extend_package (package : scope.isPackage = true) : scope.extend added = scope := by
  obtain ⟨names, files, blocks, results⟩ := scope
  cases blocks with
  | nil => rfl
  | cons => cases package

/-- All that is pushed onto the stacks has been popped, and the innermost block
has got more names at most. -/
def Grows (next : Scope) : Prop := ∃ added, next = scope.extend added

namespace Grows

variable {scope} {inner next : Scope}

theorem refl (scope : Scope) : scope.Grows scope := ⟨[], scope.extend_nil.symm⟩

theorem bind (scope : Scope) (name : String) (symbol : SymbolId) :
    scope.Grows (scope.bind name symbol) := ⟨_, scope.bind_eq_extend name symbol⟩

theorem trans (first : scope.Grows inner) (second : inner.Grows next) : scope.Grows next := by
  obtain ⟨added, rfl⟩ := first
  obtain ⟨later, rfl⟩ := second
  exact ⟨_, scope.extend_extend added later⟩

theorem isPackage (grows : scope.Grows next) : next.isPackage = scope.isPackage := by
  obtain ⟨added, rfl⟩ := grows
  exact scope.extend_isPackage added

theorem stays (grows : scope.Grows next) (package : scope.isPackage = true) : next = scope := by
  obtain ⟨added, rfl⟩ := grows
  exact scope.extend_package added package

theorem leave (grows : scope.enter.Grows inner) : inner.leave = scope := by
  obtain ⟨added, rfl⟩ := grows
  rfl

end Grows

end Scope

def thenAdds (first later : List String → List Ident) (names : List String) : List Ident :=
  later ((first names).map Ident.name ++ names) ++ first names

def localNames (idents : List Ident) : List Ident := (idents.filter (!·.isBlank)).reverse

theorem thenAdds_localNames (first later : List Ident) :
    thenAdds (fun _ => localNames first) (fun _ => localNames later) =
      fun _ => localNames (first ++ later) := by
  funext names
  simp [thenAdds, localNames]

def newTarget (target : Expr) (names : List String) : List Ident :=
  match target.ident? with
  | none => []
  | some ident => if names.contains ident.name then [] else localNames [ident]

def newTargets : List Expr → List String → List Ident
  | [] => fun _ => []
  | target :: later => thenAdds (newTarget target) (newTargets later)

theorem Selection.Within.mono {known known' : SymbolId → Prop}
    (within : selection.Within seen known) (weaker : ∀ symbol, known symbol → known' symbol) :
    selection.Within (fun _ => True) known' := by
  cases selection with
  | field => trivial
  | method => exact ⟨weaker _ within.1, trivial⟩
  | interfaceMethod => trivial
  | qualified => exact weaker _ within

/-! ### Regimes -/

namespace Typing

variable {type : TypeId} {types : List TypeId}

/-- The changes of the state that are allowed while a file is checked, and the
states that they keep sound. -/
structure Regime (environment : Environment) where
  Step : TypingState → TypingState → Prop
  Sound : TypingState → Prop
  refl : ∀ state, Step state state
  trans : ∀ {state middle next}, Step state middle → Step middle next → Step state next
  sound : ∀ {state next}, Step state next → Sound state → Sound next

namespace Regime

variable {environment : Environment}

/-- From every sound state behind `base`, an action makes allowed changes only,
and its result is as described. -/
def Meets {α : Type} (regime : Regime environment) (base : TypingState) (action : Typing α)
    (post : TypingState → α → Prop) : Prop :=
  ∀ state, regime.Step base state → regime.Sound state →
    regime.Step state ((action.run environment).run state).2 ∧
      post ((action.run environment).run state).2 ((action.run environment).run state).1

namespace Meets

variable {α β : Type} {regime : Regime environment} {base : TypingState} {action : Typing α}
  {next : α → Typing β} {post : TypingState → β → Prop}

theorem bind {middle : TypingState → α → Prop} (first : regime.Meets base action middle)
    (second : ∀ value later, regime.Step base later → middle later value →
      regime.Meets later (next value) post) :
    regime.Meets base (action >>= next) post := by
  intro state reached sound
  obtain ⟨step, holds⟩ := first state reached sound
  obtain ⟨later, result⟩ := second _ _ (regime.trans reached step) holds _ (regime.refl _)
    (regime.sound step sound)
  exact ⟨regime.trans step later, result⟩

theorem mono {action : Typing β} {later : TypingState} (meets : regime.Meets base action post)
    (step : regime.Step base later) : regime.Meets later action post :=
  fun state reached => meets state (regime.trans step reached)

theorem seq {middle : α → Prop} (first : regime.Meets base action fun _ => middle)
    (second : ∀ value, middle value → regime.Meets base (next value) post) :
    regime.Meets base (action >>= next) post :=
  first.bind fun value _ step holds => (second value holds).mono step

theorem pure {value : β} (holds : ∀ state, regime.Step base state → post state value) :
    regime.Meets base (Pure.pure value) post :=
  fun state reached _ => ⟨regime.refl state, holds state reached⟩

theorem weaken {action : Typing β} {middle : TypingState → β → Prop}
    (meets : regime.Meets base action middle)
    (weaker : ∀ state value, regime.Step base state → middle state value → post state value) :
    regime.Meets base action post := by
  intro state reached sound
  obtain ⟨step, holds⟩ := meets state reached sound
  exact ⟨step, weaker _ _ (regime.trans reached step) holds⟩

/-- What no step undoes still holds behind the action. -/
theorem kept {action : Typing β} {holds : TypingState → Prop}
    (meets : regime.Meets base action post)
    (lasting : ∀ state, regime.Step base state → holds state) :
    regime.Meets base action fun state value => post state value ∧ holds state :=
  meets.weaken fun state _ reached result => ⟨result, lasting state reached⟩

theorem map {middle : α → Prop} {holds : β → Prop} {result : α → β}
    (meets : regime.Meets base action fun _ => middle)
    (weaker : ∀ value, middle value → holds (result value)) :
    regime.Meets base (result <$> action) fun _ => holds :=
  meets.seq fun value middle => pure fun _ _ => weaker value middle

theorem read {next : Environment → Typing β}
    (second : regime.Meets base (next environment) post) :
    regime.Meets base (MonadReader.read >>= next) post :=
  second

theorem get {next : TypingState → Typing β}
    (second : ∀ state, regime.Step base state → regime.Sound state →
      regime.Meets state (next state) post) :
    regime.Meets base (MonadState.get >>= next) post :=
  fun state reached sound => second state reached sound state (regime.refl state) sound

theorem ite [Decidable condition] {yes no : Typing β}
    (ifYes : condition → regime.Meets base yes post)
    (ifNo : ¬condition → regime.Meets base no post) :
    regime.Meets base (if condition then yes else no) post := by
  split
  · next holds => exact ifYes holds
  · next fails => exact ifNo fails

theorem choose [Decidable condition] {yes no : Typing α} {middle : α → Prop}
    (ifYes : regime.Meets base yes fun _ => middle) (ifNo : regime.Meets base no fun _ => middle)
    (second : ∀ value, middle value → regime.Meets base (next value) post) :
    regime.Meets base (if condition then yes >>= next else no >>= next) post :=
  ite (fun _ => ifYes.seq second) fun _ => ifNo.seq second

theorem whenever [Decidable condition] {action : Typing PUnit} {next : PUnit → Typing β}
    (first : regime.Meets base action fun _ _ => True) (second : regime.Meets base (next ⟨⟩) post) :
    regime.Meets base (if condition then action >>= next else next ⟨⟩) post :=
  ite (fun _ => first.seq fun _ _ => second) fun _ => second

end Meets

/-- From the given scope an action meets its description, which is also about
the scope that it leaves. -/
def Moves {α : Type} (regime : Regime environment) (base : TypingState) (scope : Scope)
    (action : Checker α) (post : TypingState → α → Scope → Prop) : Prop :=
  regime.Meets base (action.run scope) fun state result => post state result.1 result.2

/-- An action that leaves the scope as it is. -/
def Looks {α : Type} (regime : Regime environment) (base : TypingState) (scope : Scope)
    (action : Checker α) (post : TypingState → α → Prop) : Prop :=
  regime.Moves base scope action fun state value next => next = scope ∧ post state value

namespace Moves

variable {α β : Type} {regime : Regime environment} {base : TypingState} {scope inner : Scope}
  {action : Checker α} {next : α → Checker β} {post : TypingState → β → Scope → Prop}

theorem iff_runIn {action : Checker β} :
    regime.Moves base scope action post ↔ ∀ state, regime.Step base state → regime.Sound state →
      regime.Step state (action.runIn environment scope state).2 ∧
        post (action.runIn environment scope state).2
          (action.runIn environment scope state).1.1 (action.runIn environment scope state).1.2 :=
  .rfl

theorem bind {middle : TypingState → α → Scope → Prop}
    (first : regime.Moves base scope action middle)
    (second : ∀ value inner later, regime.Step base later → middle later value inner →
      regime.Moves later inner (next value) post) :
    regime.Moves base scope (action >>= next) post :=
  Meets.bind first fun result => second result.1 result.2

theorem mono {action : Checker β} {later : TypingState}
    (moves : regime.Moves base scope action post) (step : regime.Step base later) :
    regime.Moves later scope action post :=
  Meets.mono moves step

theorem weaken {action : Checker β} {middle : TypingState → β → Scope → Prop}
    (moves : regime.Moves base scope action middle)
    (weaker : ∀ state value inner, regime.Step base state → middle state value inner →
      post state value inner) : regime.Moves base scope action post :=
  Meets.weaken moves fun state result => weaker state result.1 result.2

theorem look {middle : TypingState → α → Prop} (first : regime.Looks base scope action middle)
    (second : ∀ value later, regime.Step base later → middle later value →
      regime.Moves later scope (next value) post) :
    regime.Moves base scope (action >>= next) post := by
  refine first.bind fun value inner later step holds => ?_
  rw [holds.1]
  exact second value later step holds.2

theorem seq {middle : α → Prop} (first : regime.Looks base scope action fun _ => middle)
    (second : ∀ value, middle value → regime.Moves base scope (next value) post) :
    regime.Moves base scope (action >>= next) post :=
  look first fun value _ step holds => (second value holds).mono step

/-- A step that has nothing to do with the scope. -/
theorem step {action : Typing α} {middle : TypingState → α → Prop}
    (first : regime.Meets base action middle)
    (second : ∀ value later, regime.Step base later → middle later value →
      regime.Moves later scope (next value) post) :
    regime.Moves base scope (liftM action >>= next) post :=
  Meets.bind first second

theorem stop {value : β} (holds : ∀ state, regime.Step base state → post state value scope) :
    regime.Moves base scope (Pure.pure value) post :=
  Meets.pure holds

theorem read {next : Environment → Checker β}
    (second : regime.Moves base scope (next environment) post) :
    regime.Moves base scope (MonadReader.read >>= next) post :=
  second

theorem get {next : Scope → Checker β} (second : regime.Moves base scope (next scope) post) :
    regime.Moves base scope (MonadState.get >>= next) post :=
  second

theorem change {next : PUnit → Checker β} {change : Scope → Scope}
    (second : regime.Moves base (change scope) (next ⟨⟩) post) :
    regime.Moves base scope (modify change >>= next) post :=
  second

/-- Behind a block the scope is the one around it again. -/
theorem leave {next : PUnit → Checker β} (grows : scope.enter.Grows inner)
    (second : regime.Moves base scope (next ⟨⟩) post) :
    regime.Moves base inner (popBlock >>= next) post :=
  .change (grows.leave.symm ▸ second)

theorem ite [Decidable condition] {yes no : Checker β}
    (ifYes : condition → regime.Moves base scope yes post)
    (ifNo : ¬condition → regime.Moves base scope no post) :
    regime.Moves base scope (if condition then yes else no) post := by
  split
  · next holds => exact ifYes holds
  · next fails => exact ifNo fails

theorem whenever [Decidable condition] {action : Typing PUnit} {next : PUnit → Checker β}
    (first : regime.Meets base action fun _ _ => True)
    (second : regime.Moves base scope (next ⟨⟩) post) :
    regime.Moves base scope (if condition then liftM action >>= next else next ⟨⟩) post :=
  ite (fun _ => step first fun _ _ reached _ => second.mono reached) fun _ => second

/-- Behind the last statement of a block the scope is the one around it again. -/
theorem left {post : TypingState → PUnit → Scope → Prop} (grows : scope.enter.Grows inner)
    (holds : ∀ state, regime.Step base state → post state ⟨⟩ scope) :
    regime.Moves base inner popBlock post := by
  intro state reached _
  refine ⟨regime.refl state, ?_⟩
  change post state ⟨⟩ inner.leave
  rw [grows.leave]
  exact holds state reached

variable {holds : TypingState → β → Prop}

theorem lift {action : Typing β} (meets : regime.Meets base action holds) :
    regime.Looks base scope (liftM action) holds :=
  fun state reached sound =>
    ⟨(meets state reached sound).1, rfl, (meets state reached sound).2⟩

theorem map {middle : α → Prop} {holds : β → Prop} {result : α → β}
    (looks : regime.Looks base scope action fun _ => middle)
    (weaker : ∀ value, middle value → holds (result value)) :
    regime.Looks base scope (result <$> action) fun _ => holds :=
  seq looks fun value middle => stop fun _ _ => ⟨rfl, weaker value middle⟩

theorem pure {value : β} (meets : ∀ state, regime.Step base state → holds state value) :
    regime.Looks base scope (Pure.pure value) holds :=
  stop fun state reached => ⟨rfl, meets state reached⟩

end Moves

end Regime

/-! ### Laws -/

/-- What the checking of a file may meet under a regime, and what its primitive
steps do. -/
structure Laws (environment : Environment) extends Regime environment where
  Seen : TypeId → Prop
  Reaches : TypingState → SymbolId → Prop
  /-- There is a record of what an identifier stands for. -/
  Recorded : TypingState → Ident → Prop
  /-- An identifier may do what it does where it stands. -/
  Permits : Mention → Prop
  Fits : TypingState → Scope → Prop
  /-- What the package has declared before may get its type. -/
  Settles : Prop
  /-- One scope comes behind another one of the same block, which declares the
  given identifiers in between. -/
  Follows : (List String → List Ident) → TypingState → Scope → TypingState → Scope → Prop
  reaches_mono : ∀ {state next id}, Step state next → Reaches state id → Reaches next id
  recorded_mono : ∀ {state next ident}, Step state next → Recorded state ident → Recorded next ident
  recorded_blank : ∀ {state} {ident : Ident}, ident.isBlank = true → Recorded state ident
  -- Scopes
  fits_mono : ∀ {state next scope}, Step state next → Fits state scope → Fits next scope
  enter : ∀ {state scope}, Fits state scope → Fits state scope.enter
  call : ∀ {state} {scope : Scope} {results}, Fits state scope →
    (∀ type ∈ results, Seen type) → Fits state (scope.call results)
  results : ∀ {state scope}, Fits state scope → ∀ type ∈ scope.results.head?.getD [], Seen type
  predeclared : ∀ {state scope}, Fits state scope → ∀ type : TypeId,
    type.index < Universe.initialTypes.size → Seen type
  lookup : ∀ {state scope name id}, Fits state scope →
    (((lookup scope name).run environment).run state).1 = some id → Reaches state id
  innermost? : ∀ {state scope name id}, Fits state scope → scope.innermost? name = some id →
    Reaches state id
  imported : ∀ {state scope path names name id}, Fits state scope →
    environment.imported.lookup path = some names → names.lookup name = some id → Reaches state id
  -- Scopes behind others
  stay : ∀ {base scope state}, Fits base scope → Step base state →
    Follows (fun _ => []) base scope state scope
  fits : ∀ {adds base scope state next}, Follows adds base scope state next → Fits base scope →
    Fits state next
  grows : ∀ {adds base scope state next}, Follows adds base scope state next → scope.Grows next
  behind : ∀ {adds later base scope middle inner state next}, Step base middle →
    Step middle state → Follows adds base scope middle inner → Follows later middle inner state next →
    Follows (thenAdds adds later) base scope state next
  follows_mono : ∀ {adds base scope state next bound}, Step state next →
    Follows adds base scope state bound → Follows adds base scope next bound
  /-- Only what is added to the names of the scope itself matters. -/
  follows_congr : ∀ {adds adds' base scope state next}, Follows adds base scope state next →
    (scope.isPackage = false → adds scope.names = adds' scope.names) →
    Follows adds' base scope state next
  -- Sound states
  closed : ∀ {state}, Sound state → state.types.Closed Seen
  fresh : ∀ {state}, Sound state → Seen ⟨state.types.size⟩
  methods : ∀ {state}, Sound state → ∀ type, Seen type →
    ∀ method ∈ (state.types.get type).methods, Reaches state method.symbol
  symbolType : ∀ {state id symbol}, Sound state → Reaches state id →
    state.symbols.get? id = some symbol → Seen symbol.type
  -- Steps
  note : ∀ {state : TypingState} {types errors typeSites iota}, state.info.types.entries ⊆ types.entries →
    Step state { state with info := { state.info with types, errors }, typeSites, iota }
  alloc : ∀ {state : TypingState} {kind}, (∀ part ∈ kind.parts, Seen part) → (∀ type, kind ≠ .named type) →
    Step state { state with types := (state.types.alloc kind).2 }
  pointer : ∀ {state : TypingState} {elem}, Seen elem →
    Step state { state with types := (state.types.pointerTo elem).2 }
  slice : ∀ {state : TypingState} {elem}, Seen elem →
    Step state { state with types := (state.types.sliceOf elem).2 }
  use : ∀ {state : TypingState} {ident id}, Permits (.plain ident) → Reaches state id →
    Step state { state with info := { state.info with
      uses := state.info.uses.insert ⟨environment.file, ident.span⟩ id } }
  recorded_use : ∀ {state : TypingState} {ident id}, Recorded { state with info := { state.info with
    uses := state.info.uses.insert ⟨environment.file, ident.span⟩ id } } ident
  select : ∀ {state : TypingState} {site selection}, selection.Within (fun _ => True) (Reaches state) →
    Step state { state with info := { state.info with
      selections := state.info.selections.insert site selection } }
  -- Declarations
  declareLocal : ∀ {base scope ident type}, Permits (.plain ident) → Fits base scope → Seen type →
    ∀ kind, toRegime.Moves base scope (declareLocal ident type kind)
      fun state _ next => Follows (fun _ => localNames [ident]) base scope state next ∧
        Recorded state ident
  settle : ∀ {state : TypingState} {name : Ident} {id type}, Settles → Sound state →
    Permits (.plain name) → Seen type →
    state.info.defs.get? ⟨environment.file, name.span⟩ = some id →
    Step state { state with symbols := state.symbols.modify id fun entry => { entry with type } }
  redeclareLocal : ∀ {base scope ident type}, Permits (.plain ident) → Fits base scope →
    Seen type → toRegime.Moves base scope (redeclareLocal ident type)
      fun state _ next => Fits state next ∧ scope.Grows next
  declareType : ∀ {base scope name} {isAlias : Bool} {resolve : Checker TypeId},
    Permits ⟨name, if isAlias then .plain else .newType⟩ → Fits base scope →
    (∀ later inner, Fits later inner → toRegime.Looks later inner resolve fun _ => Seen) →
    toRegime.Moves base scope (declareType name isAlias resolve)
      fun state _ next => Follows (fun _ => [name]) base scope state next

namespace Laws

variable {environment : Environment}

def Allows (laws : Laws environment) (mentions : List Mention) : Prop :=
  ∀ mention ∈ mentions, laws.Permits mention

structure Hosts (laws : Laws environment) (state : TypingState) (scope : Scope) :
    Prop where
  fits : laws.Fits state scope
  settles : scope.isPackage = true → laws.Settles

variable {laws : Laws environment} {base state : TypingState} {scope next : Scope}

@[simp] theorem allows_append (first second : List Mention) :
    laws.Allows (first ++ second) ↔ laws.Allows first ∧ laws.Allows second :=
  List.forall_mem_append

@[simp] theorem allows_cons (mention : Mention) (later : List Mention) :
    laws.Allows (mention :: later) ↔ laws.Permits mention ∧ laws.Allows later :=
  List.forall_mem_cons

theorem Hosts.enter (fits : laws.Fits state scope) : laws.Hosts state scope.enter :=
  ⟨laws.enter fits, fun package => by cases package⟩

theorem Hosts.grow (hosts : laws.Hosts base scope) (fits : laws.Fits state next)
    (grows : scope.Grows next) : laws.Hosts state next :=
  ⟨fits, fun package => hosts.settles (grows.isPackage ▸ package)⟩

theorem Hosts.follow {adds : List String → List Ident} (hosts : laws.Hosts base scope)
    (follows : laws.Follows adds base scope state next) : laws.Hosts state next :=
  hosts.grow (laws.fits follows hosts.fits) (laws.grows follows)

theorem unchanged {action : Checker Unit} (fits : laws.Fits base scope)
    (looks : laws.Looks base scope action fun _ _ => True) :
    laws.Moves base scope action fun state _ next =>
      laws.Follows (fun _ => []) base scope state next := by
  refine looks.weaken fun _ _ _ reached same => ?_
  rw [same.1]
  exact laws.stay fits reached

theorem invalid_seen (fits : laws.Fits base scope) : laws.Seen TypeTable.invalid :=
  laws.predeclared fits _ (by decide)

theorem basic_seen (fits : laws.Fits base scope) (kind : BasicKind) :
    laws.Seen (TypeTable.basic kind) :=
  laws.predeclared fits _ (TypeTable.basic_index_lt kind)

end Laws

variable {environment : Environment} {laws : Laws environment} {base : TypingState}
  {scope : Scope}

/-! ### Records -/

theorem report_meets (span : Span) (message : String) :
    laws.Meets base (report span message) fun _ _ => True :=
  fun _ _ _ => ⟨laws.note (List.Subset.refl _), trivial⟩

theorem record_meets (span : Span) (sees : laws.Seen type) :
    laws.Meets base (record span type) fun _ => laws.Seen :=
  fun _ _ _ => ⟨laws.note (List.subset_cons_self _ _), sees⟩

theorem recordType_meets (span : Span) (sees : laws.Seen type) :
    laws.Meets base (recordType span type) fun _ => laws.Seen :=
  fun _ _ _ => ⟨laws.note (List.subset_cons_self _ _), sees⟩

theorem denotesType_meets (expr : Expr) :
    laws.Meets base (denotesType expr) fun _ _ => True :=
  fun state _ _ => ⟨laws.refl state, trivial⟩

theorem run_definedBy? (ident : Ident) (next : Option SymbolId → Typing α) (state : TypingState) :
    (((definedBy? ident >>= next).run environment).run state) =
      ((next (state.info.defs.get? ⟨environment.file, ident.span⟩)).run environment).run state :=
  rfl

theorem iota_meets (iota : Option Nat) :
    laws.Meets base (setIota iota) fun _ _ => True :=
  fun _ _ _ => ⟨laws.note (List.Subset.refl _), trivial⟩

theorem recordUse_meets (permits : laws.Permits (.plain ident))
    (reaches : laws.Reaches base symbol) :
    laws.Meets base (recordUse ident symbol) fun state _ =>
      laws.Recorded state ident :=
  fun _ reached _ => ⟨laws.use permits (laws.reaches_mono reached reaches), laws.recorded_use⟩

theorem recordSelection_meets (span : Span)
    (within : selection.Within (fun _ => True) (laws.Reaches base)) :
    laws.Meets base (recordSelection span selection) fun _ _ => True :=
  fun _ reached _ => ⟨laws.select (within.mono fun _ => laws.reaches_mono reached), trivial⟩

/-! ### Types -/

theorem queryTypes_meets {query : TypeTable → α} {holds : α → Prop}
    (answer : ∀ table : TypeTable, table.Closed laws.Seen → holds (query table)) :
    laws.Meets base (queryTypes query) fun _ => holds :=
  fun state _ sound => ⟨laws.refl state, answer _ (laws.closed sound)⟩

theorem defaultType_meets (sees : laws.Seen type) :
    laws.Meets base (defaultType type) fun _ => laws.Seen :=
  queryTypes_meets fun _ closed => closed.defaultType sees

theorem alloc_meets {kind : TypeKind} (parts : ∀ part ∈ kind.parts, laws.Seen part)
    (bare : ∀ type, kind ≠ .named type) :
    laws.Meets base (alloc kind) fun _ => laws.Seen :=
  fun _ _ sound => ⟨laws.alloc parts bare, laws.fresh sound⟩

theorem pointerTo_meets (sees : laws.Seen elem) :
    laws.Meets base (stepTypes fun types => types.pointerTo elem)
      fun _ => laws.Seen :=
  fun _ _ sound => ⟨laws.pointer sees, ((laws.closed sound).pointerTo sees (laws.fresh sound)).2⟩

theorem sliceOf_meets (sees : laws.Seen elem) :
    laws.Meets base (stepTypes fun types => types.sliceOf elem) fun _ => laws.Seen :=
  fun _ _ sound => ⟨laws.slice sees, ((laws.closed sound).sliceOf sees (laws.fresh sound)).2⟩

theorem sliceResult_meets (sees : laws.Seen type) :
    laws.Meets base (stepTypes fun types => types.sliceResult type) fun _ => laws.Seen := by
  intro state reached sound
  change laws.Step state { state with types := (state.types.sliceResult type).2 } ∧
    laws.Seen (state.types.sliceResult type).1
  rcases (laws.closed sound).sliceResult_cases sees with
    ⟨result, seesResult, same⟩ | ⟨elem, seesElem, same⟩
  · rw [same]
    exact ⟨laws.refl state, seesResult⟩
  · rw [same]
    exact sliceOf_meets seesElem state reached sound

theorem callResult_meets (sees : laws.Seen type) :
    laws.Meets base (stepTypes fun types => types.callResult type) fun _ => laws.Seen := by
  intro state reached sound
  change laws.Step state { state with types := (state.types.callResult type).2 } ∧
    laws.Seen (state.types.callResult type).1
  rcases (laws.closed sound).callResult_cases sees with
    ⟨result, seesResult, same⟩ | ⟨results, seesAll, same⟩
  · rw [same]
    exact ⟨laws.refl state, seesResult⟩
  · have tuple : laws.Meets base (alloc (.tuple results)) fun _ => laws.Seen :=
      alloc_meets seesAll (by simp)
    rw [same]
    exact tuple state reached sound

theorem head_seen (fits : laws.Fits base scope) (sees : ∀ type ∈ types, laws.Seen type) :
    laws.Seen (types.head?.getD TypeTable.invalid) := by
  cases types with
  | nil => exact laws.invalid_seen fits
  | cons type later => exact sees type List.mem_cons_self

theorem tail_seen (sees : ∀ type ∈ types, laws.Seen type) :
    ∀ type ∈ types.tail, laws.Seen type :=
  fun type member => sees type (List.mem_of_mem_tail member)

theorem bindingHints_seen (count : Nat) (values : List Expr) {hints : List (Option TypeId)}
    (sees : ∀ hint ∈ hints, ∀ type ∈ hint, seen type) :
    ∀ hint ∈ bindingHints count values hints, ∀ type ∈ hint, seen type := by
  unfold bindingHints
  split
  · simp
  · exact sees

/-! ### Declarations -/

theorem symbolKind?_meets (symbol : SymbolId) :
    laws.Meets base (symbolKind? symbol) fun _ _ => True :=
  fun state _ _ => ⟨laws.refl state, trivial⟩

theorem symbolType_meets (reaches : laws.Reaches base symbol) :
    laws.Meets base (symbolType symbol) fun _ => laws.Seen := by
  intro state reached sound
  refine ⟨laws.refl state, ?_⟩
  change laws.Seen (((state.symbols.get? symbol).map Symbol.type).getD TypeTable.invalid)
  cases found : state.symbols.get? symbol with
  | none => exact (laws.closed sound).invalid
  | some entry =>
    exact laws.symbolType sound (laws.reaches_mono reached reaches) found

section

variable (fits : laws.Fits base scope)
include fits

theorem lookup_meets (name : String) :
    laws.Meets base (lookup scope name) fun _ found =>
      ∀ symbol ∈ found, laws.Reaches base symbol :=
  fun state _ _ => ⟨laws.refl state, fun _ found => laws.lookup fits found⟩

theorem lookupPackage_meets (name : String) :
    laws.Meets base (lookupPackage scope name) fun _ found =>
      ∀ symbol ∈ found, laws.Reaches base symbol := by
  refine .seq (lookup_meets fits name) fun found reaches => ?_
  cases found with
  | none => exact .pure (by simp)
  | some symbol =>
    refine .seq (symbolKind?_meets symbol) fun kind _ => ?_
    split
    · exact .pure fun _ _ => reaches
    · exact .pure (by simp)

theorem importedName?_meets (package : SymbolId) (name : String) :
    laws.Meets base (importedName? package name) fun _ found =>
      ∀ symbol ∈ found, laws.Reaches base symbol := by
  refine .read (.get fun state reached _ => .pure fun later _ symbol found => ?_)
  simp only [Option.mem_def, Option.bind_eq_bind, Option.bind_eq_some_iff] at found
  obtain ⟨_, _, path, _, names, listed, found⟩ := found
  exact laws.imported fits listed found

/-! ### Names and selectors -/

omit fits in
theorem recordSymbolType_meets (span : Span) (sees : laws.Seen type) (symbol : SymbolId) :
    laws.Meets base (do
      match ← symbolKind? symbol with
      | some .typeName => recordType span type
      | _ => record span type) fun _ => laws.Seen := by
  refine .seq (symbolKind?_meets symbol) fun kind _ => ?_
  split
  · exact recordType_meets span sees
  · exact record_meets span sees

theorem checkIdent_meets (permits : laws.Permits (.plain ident)) :
    laws.Meets base (checkIdent scope ident) fun _ => laws.Seen := by
  have invalid := laws.invalid_seen fits
  refine .ite (fun _ => record_meets _ invalid) fun _ => ?_
  refine .seq (lookup_meets fits ident.name) fun found reaches => ?_
  cases found with
  | none => exact .seq (report_meets _ _) fun _ _ => record_meets _ invalid
  | some symbol =>
    refine .bind (recordUse_meets permits (reaches symbol rfl)) fun _ _ step _ =>
      .seq (symbolType_meets (laws.reaches_mono step (reaches symbol rfl)))
        fun type sees => .get fun _ _ _ => ?_
    exact .whenever (report_meets _ _) (recordSymbolType_meets ident.span sees symbol)

theorem checkQualified_meets (span : Span) (package : SymbolId)
    (permits : laws.Permits (.plain name)) :
    laws.Meets base (checkQualified span package name) fun _ => laws.Seen := by
  refine .seq (importedName?_meets fits package name.name) fun found reaches => ?_
  cases found with
  | none =>
    exact .seq (report_meets _ _) fun _ _ => record_meets _ (laws.invalid_seen fits)
  | some symbol =>
    refine .bind (recordUse_meets permits (reaches symbol rfl)) fun _ _ step _ => ?_
    have reached := laws.reaches_mono step (reaches symbol rfl)
    exact .seq (recordSelection_meets span reached) fun _ _ =>
      .seq (symbolType_meets reached) fun type sees => recordSymbolType_meets span sees symbol

theorem checkSelection_meets (span : Span) {operand : TypeId} (sees : laws.Seen operand)
    (permits : laws.Permits (.plain name)) :
    laws.Meets base (checkSelection span operand name) fun _ => laws.Seen := by
  have invalid := laws.invalid_seen fits
  refine .get fun state reached sound => .ite (fun _ => record_meets span sees) fun _ => ?_
  split
  · next selection found =>
    have chosen := (laws.closed sound).select? (laws.methods sound) found sees
    have recorded {later : TypingState} (step : laws.Step state later) :
        laws.Meets later (do
          recordSelection span selection
          record span (selection.type?.getD TypeTable.invalid)) fun _ => laws.Seen := by
      refine .seq (recordSelection_meets span (chosen.mono fun _ =>
        laws.reaches_mono step)) fun _ _ => record_meets span ?_
      cases selection with
      | field => exact chosen
      | method => exact chosen.2
      | interfaceMethod => exact chosen
      | qualified => exact invalid
    cases selection with
    | method symbol _ _ =>
      exact .bind (recordUse_meets permits chosen.1) fun _ _ step _ => recorded step
    | _ => exact recorded (laws.refl state)
  · exact .seq (report_meets _ _) fun _ _ => record_meets span invalid

theorem packageOperand?_meets (operand : Expr) :
    laws.Meets base (packageOperand? scope operand) fun _ found =>
      ∀ entry ∈ found, operand = .ident entry.1 ∧ laws.Reaches base entry.2 := by
  unfold packageOperand?
  split
  · next name =>
    refine .seq (lookupPackage_meets fits name.name) fun found reaches => .pure fun _ _ => ?_
    rintro entry member
    obtain ⟨symbol, rfl, rfl⟩ := Option.map_eq_some_iff.mp member
    exact ⟨rfl, reaches symbol rfl⟩
  · exact .pure (by simp)

theorem builtin?_meets (callee : Expr) :
    laws.Meets base (builtin? scope callee) fun _ found =>
      ∀ entry ∈ found, callee.unparen = .ident entry.1 ∧ laws.Reaches base entry.2 := by
  unfold builtin?
  split
  · next name same =>
    refine .seq (lookup_meets fits name.name) fun found reaches => ?_
    cases found with
    | none => exact .pure (by simp)
    | some symbol =>
      refine .seq (symbolKind?_meets symbol) fun kind _ => ?_
      split
      · refine .pure fun _ _ entry member => ?_
        cases member
        exact ⟨same, reaches symbol rfl⟩
      · exact .pure (by simp)
  · exact .pure (by simp)

theorem builtinResult_meets (name : String) {arguments : List TypeId}
    (sees : ∀ type ∈ arguments, laws.Seen type) :
    laws.Meets base (builtinResult name arguments) fun _ => laws.Seen := by
  have first := head_seen fits sees
  refine .ite (fun _ => .pure fun _ _ => laws.basic_seen fits _) fun _ =>
    .ite (fun _ => pointerTo_meets first) fun _ => .ite (fun _ => .pure fun _ _ => first) fun _ =>
      .ite (fun _ => .pure fun _ _ => ?_) fun _ => .pure fun _ _ => ?_
  · exact laws.predeclared fits _ (by decide)
  · exact laws.predeclared fits _ (by decide)

/-! ### Type names -/

theorem resolveName_meets (permits : laws.Permits (.plain ident)) :
    laws.Meets base (resolveName scope ident) fun _ => laws.Seen := by
  have unknown (message : String) : laws.Meets base (do
      report ident.span message
      return TypeTable.invalid) fun _ => laws.Seen :=
    .seq (report_meets _ _) fun _ _ => .pure fun _ _ => laws.invalid_seen fits
  refine .seq (lookup_meets fits ident.name) fun found reaches => ?_
  cases found with
  | none => exact unknown _
  | some symbol =>
    refine .seq (symbolKind?_meets symbol) fun kind _ => ?_
    split
    · exact .bind (recordUse_meets permits (reaches symbol rfl)) fun _ _ step _ =>
        symbolType_meets (laws.reaches_mono step (reaches symbol rfl))
    · exact unknown _

theorem qualifiedType?_meets (permits : laws.Permits (.plain package)) (name : Ident) :
    laws.Meets base (qualifiedType? scope package name) fun state found =>
      ∀ symbol ∈ found, laws.Reaches state symbol := by
  refine .seq (lookupPackage_meets fits package.name) fun found reaches => ?_
  cases found with
  | none => exact .pure (by simp)
  | some import' =>
    refine .bind (recordUse_meets permits (reaches import' rfl)) fun _ _ step _ =>
      .seq (importedName?_meets (laws.fits_mono step fits) import' name.name)
        fun found reaches => ?_
    cases found with
    | none => exact .pure (by simp)
    | some symbol =>
      refine .seq (symbolKind?_meets symbol) fun kind _ => ?_
      split
      · exact .pure fun _ step symbol member =>
          laws.reaches_mono step (reaches symbol member)
      · exact .pure (by simp)

theorem resolveQualified_meets (permitsPackage : laws.Permits (.plain package))
    (permits : laws.Permits (.plain name)) :
    laws.Meets base (resolveQualified scope package name) fun _ => laws.Seen := by
  refine .bind (qualifiedType?_meets fits permitsPackage name) fun found _ _ reaches => ?_
  cases found with
  | none =>
    exact .seq (report_meets _ _) fun _ _ => .pure fun _ _ => laws.invalid_seen fits
  | some symbol =>
    exact .bind (recordUse_meets permits (reaches symbol rfl)) fun _ _ step _ =>
      symbolType_meets (laws.reaches_mono step (reaches symbol rfl))

/-! ### Bindings -/

omit fits in
theorem isCommaOk_meets (value : Expr) : laws.Meets base (isCommaOk value) fun _ _ => True := by
  unfold isCommaOk
  split
  · have recorded (operand : Expr) :
        laws.Meets base (recordedType? operand) fun _ _ => True :=
      fun state _ _ => ⟨laws.refl state, trivial⟩
    refine .seq (recorded _) fun found _ => ?_
    cases found with
    | none => exact .pure fun _ _ => trivial
    | some type => exact queryTypes_meets fun _ _ => trivial
  · exact .pure fun _ _ => trivial
  · exact .pure fun _ _ => trivial
  · exact .pure fun _ _ => trivial

theorem unpack_meets (count : Nat) (values : List Expr) (sees : ∀ type ∈ types, laws.Seen type) :
    laws.Meets base (unpack count values types) fun _ types =>
      ∀ type ∈ types, laws.Seen type := by
  unfold unpack
  split
  · next value type =>
    have seesType : laws.Seen type := sees type (by simp)
    refine .ite (fun _ => .pure fun _ _ => sees) fun _ => ?_
    have kinds : laws.Meets base (queryTypes fun table => table.get type)
        fun _ kind => ∀ part ∈ kind.parts, laws.Seen part :=
      queryTypes_meets fun table closed => closed.parts type seesType
    refine .seq kinds fun kind parts => ?_
    split
    · exact .pure fun _ _ => parts
    · refine .seq (isCommaOk_meets value) fun _ _ => .ite (fun _ => .pure fun _ _ => ?_) fun _ =>
        .pure fun _ _ => ?_
      · simpa using ⟨seesType, laws.basic_seen fits .bool⟩
      · intro type member
        rw [List.eq_of_mem_replicate member]
        exact laws.invalid_seen fits
  · exact .pure fun _ _ => sees

end

theorem declareLocal_meets (permits : laws.Permits (.plain ident)) (fits : laws.Fits base scope)
    (sees : laws.Seen type) (kind : SymbolKind) :
    laws.Moves base scope (declareLocal ident type kind) fun state _ next =>
      laws.Follows (fun _ => localNames [ident]) base scope state next ∧
        laws.Recorded state ident :=
  laws.declareLocal permits fits sees kind

theorem declareLocals_meets {idents : List Ident} (allows : laws.Allows (idents.map .plain))
    (sees : laws.Seen type) (kind : SymbolKind) (fits : laws.Fits base scope) :
    laws.Moves base scope (declareLocals type kind idents) fun state _ next =>
      laws.Follows (fun _ => localNames idents) base scope state next := by
  induction idents generalizing scope base with
  | nil => exact .stop fun _ reached => laws.stay fits reached
  | cons ident later ih =>
    rw [List.map_cons, Laws.allows_cons] at allows
    rw [← List.singleton_append, ← thenAdds_localNames]
    refine .bind (declareLocal_meets allows.1 fits sees kind) fun _ bound _ step declared => ?_
    exact (ih allows.2 (laws.fits declared.1 fits)).weaken fun _ _ _ reached follows =>
      laws.behind step reached declared.1 follows

theorem defineTarget_meets (target : Expr) (allows : laws.Allows target.mentions)
    (sees : laws.Seen type) (fits : laws.Fits base scope) :
    laws.Moves base scope (defineTarget target type) fun state _ next =>
      laws.Follows (newTarget target) base scope state next ∧
        ∀ ident ∈ target.ident?, laws.Recorded state ident := by
  have stays {state : TypingState} (step : laws.Step base state)
      (none : newTarget target scope.names = []) :
      laws.Follows (newTarget target) base scope state scope :=
    laws.follows_congr (laws.stay fits step) fun _ => none.symm
  unfold defineTarget
  split
  · next noName =>
    refine .weaken (.lift (report_meets _ _)) fun _ _ _ step same => ?_
    rw [same.1]
    exact ⟨stays step (by simp [newTarget, noName]), by simp [noName]⟩
  · next ident found =>
    have permits : laws.Permits (.plain ident) := by
      rw [Expr.mentions_of_ident? found] at allows
      exact allows _ List.mem_cons_self
    simp only [found, Option.mem_some_iff, forall_eq']
    refine .ite (fun blank => .stop fun _ step => ⟨stays step ?_, laws.recorded_blank blank⟩)
      fun _ => .get ?_
    · simp [newTarget, found, localNames, blank]
    · split
      · next symbol bound =>
        have reaches := laws.innermost? fits bound
        have known : ident.name ∈ scope.names := by
          by_contra absent
          rw [scope.innermost?_eq_none_iff.mpr absent] at bound
          cases bound
        refine .step (recordUse_meets permits reaches) fun _ _ step recorded => ?_
        refine .step (symbolType_meets (laws.reaches_mono step reaches)) fun _ _ next seesType =>
          .step (record_meets _ seesType) fun _ _ last _ => .stop fun _ reached => ?_
        have behind := laws.trans next (laws.trans last reached)
        exact ⟨stays (laws.trans step behind) (by simp [newTarget, found, known]),
          laws.recorded_mono behind recorded⟩
      · next unbound =>
        have absent := scope.innermost?_eq_none_iff.mp unbound
        refine .bind (declareLocal_meets permits fits sees .var) fun _ bound _ _ declared => ?_
        refine .step (defaultType_meets sees) fun _ _ next seesType =>
          .step (record_meets _ seesType) fun _ _ last _ => .stop fun _ reached => ?_
        have behind := laws.trans next (laws.trans last reached)
        exact ⟨laws.follows_mono behind (laws.follows_congr declared.1 fun _ => by
          simp [newTarget, found, absent]), laws.recorded_mono behind declared.2⟩

theorem defineTargets_meets (targets : List Expr) (allows : laws.Allows (exprMentions targets))
    (sees : ∀ type ∈ types, laws.Seen type) (fits : laws.Fits base scope) :
    laws.Moves base scope (defineTargets targets types) fun state _ next =>
      laws.Follows (newTargets targets) base scope state next ∧
        ∀ ident ∈ targets.filterMap Expr.ident?, laws.Recorded state ident := by
  induction targets generalizing types scope base with
  | nil => exact .stop fun _ reached => ⟨laws.stay fits reached, by simp⟩
  | cons target later ih =>
    rw [exprMentions, Laws.allows_append] at allows
    refine .bind (defineTarget_meets target allows.1 (head_seen fits sees) fits)
      fun _ _ _ step first => ?_
    refine (ih allows.2 (tail_seen sees) (laws.fits first.1 fits)).weaken
      fun state _ _ reached result => ⟨laws.behind step reached first.1 result.1, ?_⟩
    intro ident member
    obtain ⟨other, inTargets, found⟩ := List.mem_filterMap.mp member
    rcases List.mem_cons.mp inTargets with rfl | inLater
    · exact laws.recorded_mono reached (first.2 ident found)
    · exact result.2 ident (List.mem_filterMap.mpr ⟨other, inLater, found⟩)

theorem settleName_meets
    (settle : ∀ {state : TypingState} {id}, laws.Sound state →
      state.info.defs.get? ⟨environment.file, name.span⟩ = some id → laws.Step state
        { state with symbols := state.symbols.modify id fun entry => { entry with type } }) :
    laws.Meets base (settleName name type) fun _ _ => True := by
  intro state reached sound
  unfold settleName
  rw [run_definedBy?]
  cases found : state.info.defs.get? ⟨environment.file, name.span⟩ with
  | none => exact ⟨laws.refl state, trivial⟩
  | some symbol => exact ⟨settle sound found, trivial⟩

/-- In a block the name is declared; those of a package are declared before. -/
theorem bindName_meets (kind : SymbolKind) (sees : laws.Seen type)
    (permits : laws.Permits (.plain name)) (hosts : laws.Hosts base scope) :
    laws.Moves base scope (bindName kind type name) fun state _ next =>
      laws.Follows (fun _ => localNames [name]) base scope state next ∧
        (scope.isPackage = false → laws.Recorded state name) := by
  refine .get (.ite (fun package => ?_) fun _ => ?_)
  · have settled {bound : TypeId} (sees : laws.Seen bound) {later : TypingState}
        (step : laws.Step base later) :
        laws.Moves later scope (liftM (settleName name bound)) fun state _ next =>
          laws.Follows (fun _ => localNames [name]) base scope state next ∧
            (scope.isPackage = false → laws.Recorded state name) := by
      refine .weaken (.lift (settleName_meets fun sound =>
        laws.settle (hosts.settles package) sound permits sees)) fun _ _ _ next same => ?_
      rw [same.1]
      exact ⟨laws.follows_congr (laws.stay hosts.fits (laws.trans step next))
        (by simp [package]), by simp [package]⟩
    exact .ite (fun _ => .step (defaultType_meets sees) fun _ _ step sees => settled sees step)
      fun _ => settled sees (laws.refl base)
  · exact (declareLocal_meets permits hosts.fits sees kind).weaken
      fun _ _ _ _ declared => ⟨declared.1, fun _ => declared.2⟩

theorem bindNames_meets (kind : SymbolKind) {declared : Option TypeId}
    (seesDeclared : ∀ type ∈ declared, laws.Seen type) (names : List Ident)
    (allows : laws.Allows (names.map .plain)) (sees : ∀ type ∈ types, laws.Seen type)
    (hosts : laws.Hosts base scope) :
    laws.Moves base scope (bindNames kind declared names types) fun state _ next =>
      laws.Follows (fun _ => localNames names) base scope state next ∧
        (scope.isPackage = false → ∀ name ∈ names, laws.Recorded state name) := by
  induction names generalizing types scope base with
  | nil => exact .stop fun _ reached => ⟨laws.stay hosts.fits reached, by simp⟩
  | cons name later ih =>
    rw [List.map_cons, Laws.allows_cons] at allows
    rw [← List.singleton_append, ← thenAdds_localNames]
    have first : laws.Seen ((declared <|> types.head?).getD TypeTable.invalid) := by
      cases declared with
      | none => exact head_seen hosts.fits sees
      | some type => exact seesDeclared type rfl
    refine .bind (bindName_meets kind first allows.1 hosts) fun _ _ _ step bound => ?_
    refine (ih allows.2 (tail_seen sees) (hosts.follow bound.1)).weaken
      fun state _ _ reached result =>
        ⟨laws.behind step reached bound.1 result.1, fun inner => ?_⟩
    exact List.forall_mem_cons.mpr ⟨laws.recorded_mono reached (bound.2 inner),
      result.2 ((laws.grows bound.1).isPackage.trans inner)⟩

theorem bindSubject_meets {binding : Option Ident}
    (allows : laws.Allows (binding.toList.map .plain)) {subject : TypeId}
    (sees : laws.Seen subject) {cases' : List TypeId}
    (seesCases : ∀ type ∈ cases', laws.Seen type) (fits : laws.Fits base scope) :
    laws.Moves base scope (bindSubject binding subject cases') fun state _ next =>
      laws.Fits state next ∧ scope.Grows next := by
  unfold bindSubject
  split
  · exact .stop fun _ reached => ⟨laws.fits_mono reached fits, .refl scope⟩
  · next ident =>
    have typed : laws.Meets base (subjectType subject cases') fun _ => laws.Seen := by
      refine queryTypes_meets fun table _ => ?_
      split
      · next single =>
        split
        · exact sees
        · exact seesCases single (by simp)
      · exact sees
    exact .step typed fun _ _ step sees =>
      laws.redeclareLocal (allows _ List.mem_cons_self) (laws.fits_mono step fits) sees

theorem bindRangeTarget_meets (fits : laws.Fits base scope) {target : Expr}
    (allows : laws.Allows target.mentions) (sees : laws.Seen type) :
    laws.Moves base scope (bindRangeTarget target type) fun state _ next =>
      laws.Fits state next ∧ scope.Grows next := by
  unfold bindRangeTarget
  split
  · exact .stop fun _ reached => ⟨laws.fits_mono reached fits, .refl scope⟩
  · next ident found =>
    rw [Expr.mentions_of_ident? found] at allows
    exact .bind (declareLocal_meets (allows _ List.mem_cons_self) fits sees .var)
      fun _ _ _ _ declared => .step (record_meets _ sees) fun _ _ step _ => .stop fun _ reached =>
        ⟨laws.fits_mono (laws.trans step reached) (laws.fits declared.1 fits),
          laws.grows declared.1⟩

end Typing

end Unclosed
