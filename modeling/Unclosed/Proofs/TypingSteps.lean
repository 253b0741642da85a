import Unclosed.Proofs.TypingBodies
import Unclosed.Proofs.TypingEdits

/-!
The checking of a file stays within the horizon of the package: the horizon
gives laws that the primitive steps obey.
-/

namespace Unclosed

variable {α : Type} {name : String} {id symbol : SymbolId} {site : Site} {state : TypingState}
  {type : TypeId} {ident : Ident}

/-! ### Names within a horizon -/

namespace Horizon

def Binds (horizon : Horizon) (count : Nat) (names : Bindings) : Prop :=
  ∀ entry ∈ names, horizon.Reaches count entry.2

def Respects (horizon : Horizon) (environment : Environment) (mentions : List Mention) : Prop :=
  ∀ mention ∈ mentions, horizon.role ⟨environment.file, mention.span⟩ = mention.role

variable {horizon : Horizon} {environment : Environment} {count larger : Nat} {names : Bindings}

theorem Binds.mono (binds : horizon.Binds count names) (le : count ≤ larger) :
    horizon.Binds larger names :=
  fun entry member => (binds entry member).mono le

theorem mem_of_lookup {β : Type} [BEq α] [LawfulBEq α] {entries : List (α × β)} {key : α}
    {value : β} (found : entries.lookup key = some value) : (key, value) ∈ entries := by
  obtain ⟨before, after, rfl, _⟩ := List.lookup_eq_some_iff.mp found
  simp

theorem Binds.lookup (binds : horizon.Binds count names) (found : names.lookup name = some id) :
    horizon.Reaches count id :=
  binds (name, id) (mem_of_lookup found)

@[simp] theorem respects_append (first second : List Mention) :
    horizon.Respects environment (first ++ second) ↔
      horizon.Respects environment first ∧ horizon.Respects environment second :=
  List.forall_mem_append

end Horizon

structure Environment.Within (horizon : Horizon) (count : Nat) (environment : Environment) :
    Prop where
  package : environment.package = horizon.package
  imported : ∀ entry ∈ environment.imported, horizon.Binds count entry.2
  predeclared : ∀ id : SymbolId, id.index < Universe.initialSymbols.size → horizon.Reaches count id
  predeclaredTypes : ∀ type : TypeId, type.index < Universe.initialTypes.size → horizon.Seen type

structure Scope.Within (horizon : Horizon) (environment : Environment) (count : Nat)
    (scope : Scope) : Prop where
  outer : environment.Within horizon count
  packageNames : horizon.Binds count scope.packageNames
  fileNames : ∀ names ∈ scope.fileNames, horizon.Binds count names
  blocks : ∀ block ∈ scope.blocks, horizon.Binds count block
  results : ∀ types ∈ scope.results, ∀ type ∈ types, horizon.Seen type

section Scopes

variable {horizon : Horizon} {environment : Environment} {scope : Scope} {count larger : Nat}

theorem Environment.Within.mono (within : environment.Within horizon count) (le : count ≤ larger) :
    environment.Within horizon larger where
  package := within.package
  imported entry member := (within.imported entry member).mono le
  predeclared id lt := (within.predeclared id lt).mono le
  predeclaredTypes := within.predeclaredTypes

namespace Scope.Within

variable (within : scope.Within horizon environment count)
include within

theorem mono (le : count ≤ larger) :
    scope.Within horizon environment larger where
  outer := within.outer.mono le
  packageNames := within.packageNames.mono le
  fileNames names member := (within.fileNames names member).mono le
  blocks block member := (within.blocks block member).mono le
  results := within.results

theorem enter : scope.enter.Within horizon environment count :=
  { within with
    blocks := List.forall_mem_cons.mpr ⟨fun _ none => (List.not_mem_nil none).elim, within.blocks⟩ }

theorem call {results : List TypeId} (sees : ∀ type ∈ results, horizon.Seen type) :
    (scope.call results).Within horizon environment count :=
  { within with results := List.forall_mem_cons.mpr ⟨sees, within.results⟩ }

theorem bind (name : String) (reaches : horizon.Reaches count id) :
    (scope.bind name id).Within horizon environment count := by
  have blocks := within.blocks
  unfold Scope.bind
  split
  · exact within
  · next innermost others same =>
    rw [same] at blocks
    refine { within with blocks := ?_ }
    intro block member
    rcases List.mem_cons.mp member with rfl | member
    · intro entry inBlock
      rcases List.mem_cons.mp inBlock with rfl | inBlock
      · exact reaches
      · exact blocks innermost List.mem_cons_self entry inBlock
    · exact blocks block (List.mem_cons_of_mem _ member)

theorem innermost? (found : scope.innermost? name = some id) : horizon.Reaches count id := by
  unfold Scope.innermost? at found
  split at found
  · cases found
  · next innermost others same =>
    exact (within.blocks innermost (by simp [same])).lookup found

theorem lookup (found : scope.lookup name = some id) : horizon.Reaches count id := by
  obtain ⟨block, member, inBlock⟩ := List.exists_of_findSome?_eq_some found
  exact (within.blocks block member).lookup inBlock

theorem imported? {place : Nat} (found : scope.imported? place name = some id) :
    horizon.Reaches count id := by
  obtain ⟨names, listed, found⟩ := Option.bind_eq_some_iff.mp found
  exact (within.fileNames names (List.mem_of_getElem? listed)).lookup found

theorem latest : ∀ type ∈ scope.results.head?.getD [], horizon.Seen type := by
  have results := within.results
  cases all : scope.results with
  | nil => simp
  | cons types others => exact results types (by simp [all])

end Scope.Within

/-- The scope behind a statement, which stands in the same block. -/
structure Scope.Follows (horizon : Horizon) (environment : Environment) (scope : Scope)
    (state : TypingState) (next : Scope) : Prop where
  within : next.Within horizon environment state.symbols.size
  grows : scope.Grows next

namespace Scope.Follows

variable {base state later : TypingState} {middle next : Scope}

theorem stay (within : scope.Within horizon environment base.symbols.size)
    (edits : Edits horizon base state) : scope.Follows horizon environment state scope :=
  ⟨within.mono edits.symbols_le, .refl scope⟩

theorem mono (follows : scope.Follows horizon environment state next)
    (edits : Edits horizon state later) : scope.Follows horizon environment later next :=
  ⟨follows.within.mono edits.symbols_le, follows.grows⟩

theorem trans (first : scope.Follows horizon environment state middle)
    (second : middle.Follows horizon environment later next) :
    scope.Follows horizon environment later next :=
  ⟨second.within, first.grows.trans second.grows⟩

theorem bind (within : scope.Within horizon environment state.symbols.size) (name : String)
    (reaches : horizon.Reaches state.symbols.size id) :
    scope.Follows horizon environment state (scope.bind name id) :=
  ⟨within.bind name reaches, .bind scope name id⟩

end Scope.Follows

end Scopes

theorem Universe.lookup_index_lt (found : Universe.lookup name = some id) :
    id.index < Universe.initialSymbols.size := by
  obtain ⟨⟨symbol, index⟩, member, same⟩ := List.mem_map.mp (Horizon.mem_of_lookup found)
  cases same
  simpa [Universe.initialSymbols, SymbolTable.size] using List.snd_lt_of_mem_zipIdx member

namespace Typing

variable {horizon : Horizon} {environment : Environment} {base : TypingState} {scope : Scope}

/-! ### Declarations -/

theorem symbolType_owns (defined : (site, symbol) ∈ base.info.defs.entries)
    (role : horizon.role site = .newType) :
    (horizon.regime environment).Meets base (symbolType symbol)
      fun _ type => horizon.Owns type := by
  intro state reached confined
  refine ⟨.refl state, ?_⟩
  change horizon.Owns (((state.symbols.get? symbol).map Symbol.type).getD TypeTable.invalid)
  cases found : state.symbols.get? symbol with
  | none => exact .inl rfl
  | some entry =>
    exact confined.newTypes site symbol entry (reached.defs_subset defined) role found

theorem edits_retype (confined : Confined horizon state)
    (defined : (site, symbol) ∈ state.info.defs.entries) (sees : horizon.Seen type)
    (owns : horizon.role site = .newType → horizon.Owns type) :
    Edits horizon state
      { state with symbols := state.symbols.modify symbol fun entry => { entry with type } } :=
  .single (.retype state (confined.defs site symbol defined).1 sees fun other recorded role =>
    owns ((confined.apart other site symbol recorded defined).mp role))

theorem setSymbolType_meets (defined : (site, symbol) ∈ base.info.defs.entries)
    (sees : horizon.Seen type) (owns : horizon.role site = .newType → horizon.Owns type) :
    (horizon.regime environment).Meets base (setSymbolType symbol type) fun _ _ => True :=
  fun _ reached confined =>
    ⟨edits_retype confined (reached.defs_subset defined) sees owns, trivial⟩

theorem definedBy?_meets (ident : Ident) :
    (horizon.regime environment).Meets base (definedBy? ident) fun state found =>
      ∀ symbol ∈ found, (⟨environment.file, ident.span⟩, symbol) ∈ state.info.defs.entries :=
  fun state _ _ => ⟨.refl state, fun _ found => Horizon.mem_of_lookup found⟩

/-- An identifier is tied again to what it defined before. -/
theorem recordDef_meets
    (defined : (⟨environment.file, ident.span⟩, symbol) ∈ base.info.defs.entries)
    (plain : horizon.role ⟨environment.file, ident.span⟩ = .plain) :
    (horizon.regime environment).Meets base (recordDef ident symbol) fun _ _ => True := by
  intro state reached confined
  have present := reached.defs_subset defined
  obtain ⟨own, lt⟩ := confined.defs _ symbol present
  refine ⟨.single (.define state own lt ?_ ?_), trivial⟩
  · simp [plain]
  · exact fun other recorded => confined.apart other _ symbol recorded present

theorem edits_declare (confined : Confined horizon state) (symbol : Symbol)
    (own : symbol.package = horizon.package) (untyped : symbol.type = TypeTable.invalid)
    (site : Site) :
    Edit horizon state { state with symbols := (state.symbols.add symbol).2 } ∧
      Edit horizon { state with symbols := (state.symbols.add symbol).2 }
        { state with
          symbols := (state.symbols.add symbol).2
          info := { state.info with
            defs := state.info.defs.insert site ⟨state.symbols.size⟩ } } := by
  refine ⟨.symbol state own (untyped ▸ confined.closed.invalid),
    .define _ confined.symbols_le ?_ ?_ ?_⟩
  · simp [SymbolTable.add_size]
  · intro entry _ found
    rw [SymbolTable.get?_add, if_pos rfl] at found
    cases found
    exact .inl untyped
  · intro other recorded
    exact absurd (confined.defs other _ recorded).2 (Nat.lt_irrefl _)

theorem declare_meets (within : environment.Within horizon base.symbols.size) (kind : SymbolKind)
    (ident : Ident) (packageLevel : Bool) (key : Option FuncKey) :
    (horizon.regime environment).Meets base (declare kind ident packageLevel key) fun state symbol =>
      horizon.Reaches state.symbols.size symbol ∧
        (⟨environment.file, ident.span⟩, symbol) ∈ state.info.defs.entries := by
  intro state _ confined
  obtain ⟨added, recorded⟩ := edits_declare confined ⟨kind, ident.name, TypeTable.invalid,
    some ⟨environment.file, ident.span⟩, environment.package, packageLevel, key, none⟩
    within.package rfl ⟨environment.file, ident.span⟩
  refine ⟨(Edits.single added).trans (.single recorded), ⟨?_, .inl confined.symbols_le⟩,
    List.mem_cons_self⟩
  change state.symbols.size < (state.symbols.add _).2.size
  simp [SymbolTable.add_size]

theorem newLocal_meets (plain : horizon.role ⟨environment.file, ident.span⟩ = .plain)
    (within : environment.Within horizon base.symbols.size) (sees : horizon.Seen type)
    (kind : SymbolKind) :
    (horizon.regime environment).Meets base (newLocal ident type kind) fun state symbol =>
      horizon.Reaches state.symbols.size symbol ∧ state.info.Names environment.file [ident] := by
  have typed : (horizon.regime environment).Meets base (Pure.pure type) fun _ => horizon.Seen :=
    .pure fun _ _ => sees
  have byDefault : (horizon.regime environment).Meets base (defaultType type)
      fun _ => horizon.Seen :=
    fun state _ confined => ⟨.refl state, confined.closed.defaultType sees⟩
  refine .choose typed byDefault fun bound seesBound => ?_
  refine .bind (declare_meets within kind ident false none)
    fun symbol later edits ⟨reaches, recorded⟩ => ?_
  refine .seq (setSymbolType_meets recorded seesBound (by simp [plain])) fun _ _ =>
    .pure fun state reached => ⟨reaches.mono reached.symbols_le, reached.names ?_⟩
  intro other member _
  rw [List.mem_singleton.mp member]
  exact ⟨symbol, .inl recorded⟩

theorem declareLocal_follows (plain : horizon.role ⟨environment.file, ident.span⟩ = .plain)
    (within : scope.Within horizon environment base.symbols.size) (sees : horizon.Seen type)
    (kind : SymbolKind) :
    (horizon.regime environment).Moves base scope (declareLocal ident type kind)
      fun state _ next => scope.Follows horizon environment state next ∧
        state.info.Names environment.file [ident] := by
  refine .ite (fun blank => .stop fun _ reached => ⟨.stay within reached, by
    simp [TypeInfo.Names, blank]⟩) fun _ => ?_
  refine .step (newLocal_meets plain within.outer sees kind) fun symbol _ edits declared => ?_
  exact fun state reached _ => ⟨.refl state,
    (Scope.Follows.bind (within.mono edits.symbols_le) ident.name declared.1).mono reached,
    reached.names declared.2⟩

theorem newNamed_meets {package : String} (own : package = horizon.package) (name : String) :
    (horizon.regime environment).Meets base (stepTypes fun types => types.newNamed package name)
      fun _ type => horizon.types.size ≤ type.index := by
  intro state _ confined
  refine ⟨.single (.alloc state ?_ rfl ?_), confined.types_le⟩
  · simpa using confined.closed.invalid
  · rintro type ⟨⟩
    exact own

theorem setUnderlying_meets {underlying : TypeId} (owns : horizon.Owns type)
    (sees : horizon.Seen underlying) :
    (horizon.regime environment).Meets base
      (stepTypes fun types => ((), types.setUnderlying type underlying)) fun _ _ => True :=
  fun state _ _ => ⟨.single (.underlie state owns sees), trivial⟩

theorem declareTypeName_meets (within : environment.Within horizon base.symbols.size)
    (packageLevel : Bool) (name : Ident) (isAlias : Bool) :
    (horizon.regime environment).Meets base (declareTypeName packageLevel name isAlias)
      fun state symbol => horizon.Reaches state.symbols.size symbol := by
  refine .bind (declare_meets within .typeName name packageLevel none)
    fun symbol later edits ⟨reaches, recorded⟩ => ?_
  have answer : (horizon.regime environment).Meets later (Pure.pure symbol) fun state symbol =>
      horizon.Reaches state.symbols.size symbol :=
    .pure fun _ reached => reaches.mono reached.symbols_le
  refine .ite (fun _ => answer) fun _ => .read ?_
  refine .seq (newNamed_meets within.package name.name) fun type own => ?_
  exact .seq (setSymbolType_meets recorded (.inl own) fun _ => .inr own) fun _ _ => answer

def typeNameRole (isAlias : Bool) : Role := if isAlias then .plain else .newType

theorem completeType_meets {name : Ident} {isAlias : Bool}
    (role : horizon.role ⟨environment.file, name.span⟩ = typeNameRole isAlias)
    (sees : horizon.Seen type) :
    (horizon.regime environment).Meets base (completeType name isAlias type) fun _ _ => True := by
  refine .bind (definedBy?_meets name) fun found later edits recorded => ?_
  cases found with
  | none => exact .pure fun _ _ => trivial
  | some symbol =>
    have defined := recorded symbol rfl
    cases isAlias with
    | true => exact setSymbolType_meets defined sees (by simp [role, typeNameRole])
    | false =>
      exact .seq (symbolType_owns defined (by simp [role, typeNameRole])) fun named owns =>
        setUnderlying_meets owns sees

/-! ### Laws -/

def laws (horizon : Horizon) (environment : Environment) : Laws environment where
  toRegime := horizon.regime environment
  Seen := horizon.Seen
  Reaches state := horizon.Reaches state.symbols.size
  Recorded state ident := state.info.Names environment.file [ident]
  Permits mention := horizon.role ⟨environment.file, mention.span⟩ = mention.role
  Fits state scope := scope.Within horizon environment state.symbols.size
  Settles := True
  Follows _ _ scope state next := scope.Follows horizon environment state next
  reaches_mono edits reaches := reaches.mono edits.symbols_le
  recorded_mono edits recorded := edits.names recorded
  recorded_blank blank := by simp [TypeInfo.Names, blank]
  fits_mono edits within := within.mono edits.symbols_le
  enter := Scope.Within.enter
  call within sees := within.call sees
  results within := within.latest
  predeclared within := within.outer.predeclaredTypes
  lookup within found := by
    change (_ <|> _ <|> _ <|> _) = _ at found
    simp only [Option.orElse_eq_orElse, Option.orElse_eq_or, Option.or_eq_some_iff] at found
    rcases found with found | ⟨_, found | ⟨_, found | ⟨_, found⟩⟩⟩
    · exact within.lookup found
    · exact within.packageNames.lookup found
    · exact within.imported? found
    · exact within.outer.predeclared _ (Universe.lookup_index_lt found)
  innermost? within found := within.innermost? found
  imported within listed found :=
    (within.outer.imported _ (Horizon.mem_of_lookup listed)).lookup found
  stay := Scope.Follows.stay
  fits follows _ := follows.within
  grows follows := follows.grows
  behind _ _ first second := first.trans second
  follows_mono edits follows := follows.mono edits
  follows_congr follows _ := follows
  closed confined := confined.closed
  fresh confined := .inl confined.types_le
  methods confined := confined.methods
  symbolType confined reaches found := confined.symbolTypes _ _ reaches.2 found
  note kept := .single (.note _ _ _ _ _ kept)
  alloc {state kind} parts bare := by
    refine .single (.alloc _ parts ?_ fun type named => absurd named (bare type))
    cases kind with
    | named type => exact absurd rfl (bare type)
    | _ => rfl
  pointer sees := .single (.pointer _ sees)
  slice sees := .single (.slice _ sees)
  use {state ident id} plain reaches := by
    refine .single (.use _ reaches ?_)
    rw [show horizon.role ⟨environment.file, ident.span⟩ = .plain from plain]
    decide
  recorded_use {state ident id} other member _ := by
    rw [List.mem_singleton.mp member]
    exact ⟨id, .inr List.mem_cons_self⟩
  select within := .single (.select _ within)
  declareLocal plain within sees kind := declareLocal_follows plain within sees kind
  settle {state name id type} _ confined plain sees found := by
    refine edits_retype confined (Horizon.mem_of_lookup found) sees fun role => ?_
    rw [show horizon.role ⟨environment.file, name.span⟩ = .plain from plain] at role
    cases role
  redeclareLocal {base scope ident type} plain within sees := by
    refine .step (definedBy?_meets ident) fun previous before edits recorded => ?_
    refine .bind (declareLocal_follows plain (within.mono edits.symbols_le) sees .var)
      fun _ bound after declared follows => ?_
    have answer : (horizon.regime environment).Moves after bound (Pure.pure ()) fun state _ next =>
        next.Within horizon environment state.symbols.size ∧ scope.Grows next :=
      .stop fun _ reached => ⟨follows.1.within.mono reached.symbols_le, follows.1.grows⟩
    cases previous with
    | none => exact answer
    | some symbol =>
      exact .step (recordDef_meets (declared.defs_subset (recorded symbol rfl)) plain)
        fun _ _ reached _ => answer.mono reached
  declareType {base scope name isAlias resolve} role within resolves := by
    refine .get (.step (declareTypeName_meets within.outer _ name isAlias)
      fun symbol _ edits reaches => .change ?_)
    have bound := Scope.Follows.bind (within.mono edits.symbols_le) name.name reaches
    refine .seq (resolves _ _ bound.within) fun _ sees => ?_
    refine .weaken (.lift (completeType_meets role sees)) fun _ _ _ reached same => ?_
    rw [same.1]
    exact bound.mono reached

abbrev Meets {α : Type} (horizon : Horizon) (environment : Environment) (base : TypingState)
    (action : Typing α) (post : TypingState → α → Prop) : Prop :=
  (laws horizon environment).Meets base action post

abbrev Moves {α : Type} (horizon : Horizon) (environment : Environment) (base : TypingState)
    (scope : Scope) (action : Checker α) (post : TypingState → α → Scope → Prop) : Prop :=
  (laws horizon environment).Moves base scope action post

abbrev Looks {α : Type} (horizon : Horizon) (environment : Environment) (base : TypingState)
    (scope : Scope) (action : Checker α) (post : TypingState → α → Prop) : Prop :=
  (laws horizon environment).Looks base scope action post

theorem Moves.proceeds {action : Checker α} {post : TypingState → α → Scope → Prop}
    (moves : Moves horizon environment base scope action post) :
    Proceeds horizon base ((action.run scope).run environment) fun state result =>
      post state result.1 result.2 := moves

end Typing

end Unclosed
