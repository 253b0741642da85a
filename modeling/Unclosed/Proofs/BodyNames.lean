import Unclosed.Analysis.Run
import Unclosed.Proofs.ScopeFrames

/-!
What the targets of `:=` stand for in a function's body.  The receiver, the
parameters and the named results are bound around the body's own block.  So a
target is assigned to only if the body itself has declared the name before, and
hides a parameter of that name otherwise.
-/

namespace Unclosed

variable {sites : Site → Prop} {typed : Prop} {file : FileId} {ident : Ident}
  {mentions : List Mention} {span : Span} {signature : Signature}

/-! ### The innermost block -/

namespace Scope

def Lists (file : FileId) (low : Nat) (state : TypingState) (scope : Scope)
    (declared : List Ident) : Prop :=
  ∃ block outer, scope.blocks = block :: outer ∧
    List.Forall₂ (state.Declares file low) block declared

namespace Lists

variable {file : FileId} {low : Nat} {state next : TypingState} {scope bound : Scope}
  {declared : List Ident}

theorem enter (scope : Scope) : scope.enter.Lists file low state [] :=
  ⟨[], scope.blocks, rfl, .nil⟩

variable (lists : scope.Lists file low state declared)
include lists

theorem isPackage : scope.isPackage = false := by
  obtain ⟨block, outer, blocks, _⟩ := lists
  rw [Scope.isPackage, blocks, List.isEmpty_cons]

theorem names : scope.names = declared.map Ident.name := by
  obtain ⟨block, outer, blocks, declares⟩ := lists
  rw [Scope.names, blocks]
  exact Gains.declared_names declares

theorem mono (kept : state.Keeps sites typed next) : scope.Lists file low next declared := by
  obtain ⟨block, outer, blocks, declares⟩ := lists
  exact ⟨block, outer, blocks, declares.imp fun _ _ known => known.mono kept⟩

theorem gains {sites : Site → Prop} {typed : Prop} {adds : List String → List Ident}
    (low_le : low ≤ state.symbols.size) (kept : state.Keeps sites typed next)
    (gains : scope.Gains file adds state next bound) :
    bound.Lists file low next (adds (declared.map Ident.name) ++ declared) := by
  obtain ⟨added, rfl, declaresAdded⟩ := gains
  have added := declaresAdded lists.isPackage
  rw [lists.names] at added
  obtain ⟨block, outer, blocks, declares⟩ := lists
  refine ⟨_ ++ block, outer, by rw [Scope.extend, blocks], ?_⟩
  exact List.rel_append (added.imp fun _ _ known => known.lower low_le)
    (declares.imp fun _ _ known => known.mono kept)

theorem innermost? (name : String) :
    match declared.find? (·.name == name) with
    | none => scope.innermost? name = none
    | some origin => ∃ id, scope.innermost? name = some id ∧
        state.Declares file low (origin.name, id) origin := by
  obtain ⟨block, outer, blocks, declares⟩ := lists
  rw [Scope.innermost?, blocks]
  clear blocks
  induction declares with
  | nil => rfl
  | @cons entry ident block declared known _ ih =>
    have same : entry.1 = ident.name := known.name
    by_cases equal : ident.name = name
    · have found : (entry :: block).lookup name = some entry.2 := by
        obtain ⟨key, id⟩ := entry
        simp [← equal, ← same]
      rw [List.find?_cons_of_pos (by simpa using equal)]
      exact ⟨entry.2, found, same ▸ known⟩
    · have passed : (entry :: block).lookup name = block.lookup name := by
        obtain ⟨key, id⟩ := entry
        have apart : (name == key) = false := by
          simpa [show key = ident.name from same] using fun same => equal same.symm
        simp [List.lookup_cons, apart]
      rw [List.find?_cons_of_neg (by simpa using equal)]
      change match declared.find? (·.name == name) with
        | none => (entry :: block).lookup name = none
        | some origin => ∃ id, (entry :: block).lookup name = some id ∧ _
      rw [passed]
      exact ih

end Lists

end Scope

/-! ### Identifiers -/

namespace TypingState

/-- The identifier stands for what the origin declares. -/
def Resolves (file : FileId) (low : Nat) (state : TypingState) (ident origin : Ident) : Prop :=
  ∃ id, state.info.objectOf file ident = some id ∧ state.Declares file low (origin.name, id) origin

theorem Resolves.mono {low : Nat} {state next : TypingState} {origin : Ident}
    (resolves : state.Resolves file low ident origin) (kept : state.Keeps sites typed next)
    (outside : ¬sites ⟨file, ident.span⟩) : next.Resolves file low ident origin := by
  obtain ⟨id, found, declares⟩ := resolves
  refine ⟨id, ?_, declares.mono kept⟩
  rw [← found, TypeInfo.objectOf, TypeInfo.objectOf, kept.defs _ outside, kept.uses _ outside]

def Ties (file : FileId) (state : TypingState) (idents : List Ident) : Prop :=
  ∀ ident ∈ idents, ident.isBlank = false →
    ∃ id, state.info.defs.get? ⟨file, ident.span⟩ = some id ∧ id.index < state.symbols.size

namespace Ties

variable {sites : Site → Prop} {typed : Prop} {file : FileId} {state next : TypingState}
  {first later : List Ident}

theorem mono (ties : state.Ties file first) (kept : state.Keeps sites typed next) :
    next.Ties file first := by
  intro ident member named
  obtain ⟨id, found, below⟩ := ties ident member named
  obtain ⟨id, found, _, below⟩ := kept.tied found (Nat.zero_le _) below
  exact ⟨id, found, below⟩

theorem append (before : state.Ties file first) (after : state.Ties file later) :
    state.Ties file (first ++ later) := fun ident member => by
  rcases List.mem_append.mp member with inFirst | inLater
  · exact before ident inFirst
  · exact after ident inLater

end Ties

end TypingState

def Environment.others (environment : Environment) (ident : Ident) (site : Site) : Prop :=
  site ≠ ⟨environment.file, ident.span⟩

theorem Environment.marks_ne {environment : Environment}
    (absent : ident.span ∉ mentions.map Mention.span) :
    environment.Marks (environment.others ident) mentions := by
  intro mention member same
  have span : mention.span = ident.span := congrArg Site.span same
  exact absent (span ▸ List.mem_map_of_mem member)

def Signature.names (signature : Signature) : List Ident :=
  signature.params.flatMap Field.names ++ signature.results.flatMap Field.names

namespace Typing

variable {environment : Environment} {sites : Site → Prop}

/-! ### Parameters -/

theorem declareLocals_ties (type : TypeId) (kind : SymbolKind) (idents : List Ident)
    (scope : Scope) (state : TypingState) :
    ((declareLocals type kind idents).runIn environment scope state).2.Ties environment.file
      idents := by
  induction idents generalizing scope state with
  | nil => intro ident member; cases member
  | cons ident later ih =>
    rw [declareLocals, runIn_bind]
    generalize declared : (declareLocal ident type kind).runIn environment scope state = result
    have first : result.2.Ties environment.file [ident] := by
      intro other member named
      rw [List.mem_singleton.mp member] at named ⊢
      obtain ⟨bound, ran⟩ := declareLocal_run scope named type kind state
      rw [← declared, ran]
      exact ⟨_, TypingState.declared_defs _ _ _, by simp⟩
    have others : Frames environment (fun _ => True) True (declareLocals type kind later) :=
      .of_meets fun _ _ => declareLocals_meets (fun _ _ => trivial) trivial kind trivial
    exact (first.mono (others _ result.2)).append (ih _ result.2)

theorem bindFields_frames (kind : SymbolKind) (fields : List Field)
    (marked : environment.Marks sites (fieldMentions fields)) :
    Frames environment sites True (bindFields kind fields) :=
  .of_meets fun _ _ => bindFields_meets kind fields marked trivial

theorem enterFunction_frames (signature : Signature)
    (marked : environment.Marks sites signature.mentions) :
    Frames environment sites True (enterFunction signature) :=
  .of_meets fun _ _ => enterFunction_meets signature marked trivial

theorem bindFields_ties (kind : SymbolKind) (fields : List Field) (scope : Scope)
    (state : TypingState) :
    ((bindFields kind fields).runIn environment scope state).2.Ties environment.file
      (fields.flatMap Field.names) := by
  induction fields generalizing scope state with
  | nil => intro ident member; cases member
  | cons field later ih =>
    obtain ⟨names, type, tag, span⟩ := field
    rw [bindFields, runIn_bind, runIn_bind, runIn_bind, List.flatMap_cons]
    generalize (resolveType type).runIn environment scope state = resolved
    have first := @declareLocals_ties environment resolved.1.1 kind names resolved.1.2 resolved.2
    generalize (declareLocals resolved.1.1 kind names).runIn environment resolved.1.2 resolved.2
      = declared at first ⊢
    have others : Frames environment (fun _ => True) True (bindFields kind later) :=
      bindFields_frames kind later fun _ _ => trivial
    exact (first.mono (others _ declared.2)).append (ih _ declared.2)

theorem enterFunction_ties (signature : Signature) (scope : Scope) (state : TypingState) :
    ((enterFunction signature).runIn environment scope state).2.Ties environment.file
      signature.names := by
  obtain ⟨params, results, span⟩ := signature
  rw [enterFunction, runIn_bind, runIn_bind]
  have first := @bindFields_ties environment .param params scope state
  generalize (bindFields .param params).runIn environment scope state = bound at first ⊢
  have others : Frames environment (fun _ => True) True (bindFields .var results) :=
    bindFields_frames .var results fun _ _ => trivial
  exact (first.mono (others _ bound.2)).append (bindFields_ties .var results _ bound.2)

/-! ### Targets -/

theorem checkStmts_append (before after : List Stmt) :
    checkStmts (before ++ after) = (do checkStmts before; checkStmts after) := by
  induction before with
  | nil => simp [checkStmts]
  | cons stmt later ih => simp only [List.cons_append, checkStmts, bind_assoc, ih]

theorem defineTargets_append (earlier later : List Expr) (types : List TypeId) :
    defineTargets (earlier ++ later) types =
      (do defineTargets earlier types; defineTargets later (types.drop earlier.length)) := by
  induction earlier generalizing types with
  | nil => simp [defineTargets]
  | cons target others ih => simp [defineTargets, ih, bind_assoc]

/-- Whatever state an action starts in, behind it an identifier stands for what
the origin declares.  The identifier is undefined before, and the innermost
block binds the declared identifiers. -/
def Settles {α : Type} (environment : Environment) (low : Nat) (ident origin : Ident)
    (declared : List Ident) (scope : Scope) (action : Checker α) : Prop :=
  ∀ state, scope.Lists environment.file low state declared → low ≤ state.symbols.size →
    state.info.defs.get? ⟨environment.file, ident.span⟩ = none →
      (action.runIn environment scope state).2.Resolves environment.file low ident origin

namespace Settles

variable {α β : Type} {low : Nat} {ident origin : Ident} {declared : List Ident} {scope : Scope}

theorem after {action : Checker α} {next : α → Checker β}
    {post : TypingState → TypingState → α → Prop}
    (first : ∀ base, (keeping environment (environment.others ident) False).Looks base scope
      action (post base))
    (second : ∀ value, Settles environment low ident origin declared scope (next value)) :
    Settles environment low ident origin declared scope (action >>= next) := by
  intro state lists low_le undefined
  obtain ⟨kept, same, _⟩ := Regime.Moves.iff_runIn.mp (first state) state (.refl state) trivial
  rw [runIn_bind, same]
  exact second _ _ (lists.mono kept) (Nat.le_trans low_le kept.symbols_le)
    ((kept.defs _ fun apart => apart rfl).trans undefined)

theorem bind {adds : List String → List Ident} {action : Checker α} {next : α → Checker β}
    (first : Binds environment (environment.others ident) False adds action)
    (second : ∀ value bound, Settles environment low ident origin
      (adds (declared.map Ident.name) ++ declared) bound (next value)) :
    Settles environment low ident origin declared scope (action >>= next) := by
  intro state lists low_le undefined
  obtain ⟨kept, gains⟩ := first scope state
  exact second _ _ _ (lists.gains low_le kept gains) (Nat.le_trans low_le kept.symbols_le)
    ((kept.defs _ fun apart => apart rfl).trans undefined)

theorem before {action : Checker α} {next : α → Checker β}
    (first : Settles environment low ident origin declared scope action)
    (second : ∀ value, Frames environment (environment.others ident) False (next value)) :
    Settles environment low ident origin declared scope (action >>= next) :=
  fun state lists low_le undefined => (first state lists low_le undefined).mono
    (second _ _ _) fun apart => apart rfl

end Settles

theorem defineTargets_binds (targets : List Expr)
    (marked : environment.Marks sites (exprMentions targets)) (types : List TypeId) :
    Binds environment sites False (newTargets targets) (defineTargets targets types) := by
  have allowed : (keeping environment sites False).Allows (exprMentions targets) := marked
  exact .of_meets fun _ _ => (defineTargets_meets targets allowed (fun _ _ => trivial)
    trivial).weaken fun _ _ _ _ result => result.1

section Target

variable {scope : Scope} {low : Nat} {declared : List Ident} {target : Expr} {ident : Ident}
  {later : List Expr}

/-- A target stands for what the block has declared before under its name, or
else for a new declaration of its own. -/
theorem defineTarget_settles (found : target.ident? = some ident)
    (named : ident.isBlank = false) (type : TypeId) :
    Settles environment low ident ((declared.find? (·.name == ident.name)).getD ident) declared
      scope (defineTarget target type) := by
  intro state lists low_le undefined
  have recorded (type : TypeId) : Frames environment (environment.others ident) False
      (do let _ ← record target.span type) :=
    .bind (.of_meets fun _ _ => .lift (record_meets target.span trivial)) fun _ _ _ => .refl _
  have outside : ¬environment.others ident ⟨environment.file, ident.span⟩ :=
    fun apart => apart rfl
  have known := lists.innermost? ident.name
  cases origin : declared.find? (·.name == ident.name) with
  | none =>
    have known : scope.innermost? ident.name = none := by rwa [origin] at known
    have split : (defineTarget target type).runIn environment scope state =
        (do
          declareLocal ident type .var
          let _ ← record target.span (← defaultType type) : Checker Unit).runIn environment
            scope state := by
      simp [defineTarget, found, named, runIn_bind, runIn_get, known]
    obtain ⟨bound, ran⟩ := declareLocal_run scope named type .var state
    rw [split, runIn_bind, ran]
    -- What follows the declaration leaves the record of the identifier alone.
    refine TypingState.Resolves.mono ?_ (recorded _ _ _) outside
    refine ⟨⟨state.symbols.size⟩, ?_, rfl, low_le, _, state.declared_symbol _ _, rfl, rfl⟩
    rw [TypeInfo.objectOf, state.declared_defs]
  | some first =>
    rw [origin] at known
    obtain ⟨id, known, declares⟩ := known
    have split : (defineTarget target type).runIn environment scope state =
        (do
          recordUse ident id
          let _ ← record target.span (← symbolType id) : Checker Unit).runIn environment
            scope state := by
      simp [defineTarget, found, named, runIn_bind, runIn_get, known]
    rw [split, runIn_bind]
    refine TypingState.Resolves.mono ?_ (recorded _ _ _) outside
    have kept : state.Keeps (fun _ => True) True
        (((recordUse ident id).run environment).run state).2 := .use trivial id
    refine ⟨id, ?_, declares.mono kept⟩
    have defs : (((recordUse ident id).run environment).run state).2.info.defs
        = state.info.defs := rfl
    rw [TypeInfo.objectOf, runIn_lift, defs, undefined]
    exact (SiteMap.get?_insert ..).trans (if_pos rfl)

theorem checkStmt_settles {earlier values : List Expr} (found : target.ident? = some ident)
    (named : ident.isBlank = false)
    (marked : environment.Marks (environment.others ident)
      (exprMentions earlier ++ exprMentions later ++ exprMentions values)) :
    Settles environment low ident
      (((newTargets earlier (declared.map Ident.name) ++ declared).find?
        (·.name == ident.name)).getD ident) declared scope
      (checkStmt (.assign span (earlier ++ target :: later) .define values)) := by
  simp only [Environment.marks_append] at marked
  rw [checkStmt]
  refine .after (fun _ => checkHinted_meets values marked.2 trivial fun _ _ _ _ => trivial)
    fun types => ?_
  have fits {base : TypingState} :
      (keeping environment (environment.others ident) False).Fits base scope := trivial
  refine .after (fun _ => .lift (unpack_meets fits _ values fun _ _ => trivial)) fun types => ?_
  rw [defineTargets_append]
  exact .bind (defineTargets_binds earlier marked.1.1 types) fun _ _ =>
    .before (defineTarget_settles found named _) fun _ =>
      (defineTargets_binds later marked.1.2 _).frames

end Target

/-! ### Bodies -/

/-- The identifiers that a body has declared in its own block before a target of
`:=`: by the statements before, and by the targets before. -/
def declaredBefore (before : List Stmt) (earlier : List Expr) : List Ident :=
  newTargets earlier ((blockAdds before []).map Ident.name) ++ blockAdds before []

/-- The identifier is a target of a `:=` directly among the statements, behind
the given statements and targets. -/
def Targets (stmts before : List Stmt) (earlier : List Expr) (ident : Ident) : Prop :=
  ∃ span target later values after, target.ident? = some ident ∧ ident.isBlank = false ∧
    stmts = before ++ .assign span (earlier ++ target :: later) .define values :: after

section Body

variable {stmts before : List Stmt} {earlier : List Expr} {ident : Ident} {params : List Ident}

theorem Targets.mentioned (targets : Targets stmts before earlier ident) :
    ident.span ∈ (stmtMentions stmts).map Mention.span := by
  obtain ⟨span, target, later, values, after, found, _, rfl⟩ := targets
  refine List.mem_map.mpr ⟨.plain ident, ?_, rfl⟩
  simp [stmtMentions_eq, exprMentions_eq, Expr.mentions_of_ident? found]

/-- Behind a body, a target stands for what the body's own block declared. -/
theorem checkBlock_settles (targets : Targets stmts before earlier ident)
    (distinct : ((stmtMentions stmts).map Mention.span).Nodup) (low : Nat) (scope : Scope) :
    Settles environment low ident
      (((declaredBefore before earlier).find? (·.name == ident.name)).getD ident) [] scope.enter
      (do checkStmts stmts; popBlock) := by
  obtain ⟨span, target, later, values, after, found, named, rfl⟩ := targets
  have mentions : stmtMentions
      (before ++ .assign span (earlier ++ target :: later) .define values :: after) =
      (stmtMentions before ++ exprMentions earlier) ++ .plain ident ::
        (exprMentions later ++ exprMentions values ++ stmtMentions after) := by
    simp [stmtMentions_eq, exprMentions_eq, Expr.mentions_of_ident? found]
  rw [mentions, List.map_append, List.map_cons, List.nodup_middle, List.nodup_cons,
    ← List.map_append] at distinct
  have marked : environment.Marks (environment.others ident) _ :=
    Environment.marks_ne distinct.1
  simp only [Environment.marks_append] at marked
  rw [checkStmts_append]
  have others : Frames environment (environment.others ident) False (checkStmts after) :=
    .of_meets fun _ _ => checkStmts_meets after marked.2.2 ⟨trivial, fun _ => not_false⟩
  have prior : Binds environment (environment.others ident) False (blockAdds before)
      (checkStmts before) :=
    .of_meets fun _ _ => checkStmts_meets before marked.1.1 ⟨trivial, fun _ => not_false⟩
  refine .before (.bind prior fun _ bound => ?_) fun _ _ _ => .refl _
  rw [checkStmts, List.map_nil, List.append_nil]
  refine .before (checkStmt_settles found named ?_) fun _ => others
  simp only [Environment.marks_append]
  exact ⟨⟨marked.1.2, marked.2.1.1⟩, marked.2.1.2⟩

end Body

/-- How the targets of `:=` directly in a body resolve, from the state before
the function to the state behind it.  A target stands for the latest
declaration of its name in the body's own block, itself if there is none, and
never for one of the names that are bound around the body. -/
def ResolvesInBody (file : FileId) (params : List Ident) (stmts : List Stmt)
    (start last : TypingState) : Prop :=
  ∀ before earlier ident, Targets stmts before earlier ident →
    start.info.defs.get? ⟨file, ident.span⟩ = none →
      ∃ id symbol, last.info.objectOf file ident = some id ∧ last.symbols.get? id = some symbol ∧
        symbol.name = ident.name ∧
        symbol.decl = some ⟨file,
          (((declaredBefore before earlier).find? (·.name == ident.name)).getD ident).span⟩ ∧
        ∀ param ∈ params, param.isBlank = false →
          ∃ other, last.info.objectOf file param = some other ∧ other ≠ id

section Functions

variable {state : TypingState} {params : List Ident} {stmts : List Stmt}

theorem checkBlock_resolves (ties : state.Ties environment.file params)
    (apart : ∀ param ∈ params, param.span ∉ (stmtMentions stmts).map Mention.span)
    (distinct : ((stmtMentions stmts).map Mention.span).Nodup) (scope : Scope) (bodySpan : Span) :
    ResolvesInBody environment.file params stmts state
      ((checkBlock (.mk stmts bodySpan)).runIn environment scope state).2 := by
  intro before earlier ident targets undefined
  obtain ⟨id, found, declares⟩ := checkBlock_settles targets distinct state.symbols.size scope
    state (.enter scope) (Nat.le_refl _) undefined
  obtain ⟨symbol, record, name, decl⟩ := declares.symbol
  refine ⟨id, symbol, found, record, ?_, decl, fun param member named => ?_⟩
  · rw [name]
    cases origin : (declaredBefore before earlier).find? (·.name == ident.name) with
    | none => rfl
    | some first => simpa using List.find?_some origin
  · obtain ⟨other, tied, below⟩ := ties param member named
    have kept : Frames environment (environment.others param) True
        (checkBlock (.mk stmts bodySpan)) :=
      .of_meets fun _ _ => checkBlock_meets _
        (Environment.marks_ne (by simpa using apart param member)) trivial
    refine ⟨other, ?_, fun same => ?_⟩
    · rw [TypeInfo.objectOf, (kept scope state).defs _ fun apart => apart rfl, tied]
    · have := declares.low_le
      simp only [← same] at this
      omega

theorem ResolvesInBody.mono {start first last : TypingState}
    (resolves : ResolvesInBody file params stmts first last) (kept : start.Keeps sites typed first)
    (outside : ∀ ident : Ident, ident.span ∈ (stmtMentions stmts).map Mention.span →
      ¬sites ⟨file, ident.span⟩) : ResolvesInBody file params stmts start last :=
  fun before earlier ident targets undefined => resolves before earlier ident targets
    ((kept.defs _ (outside ident targets.mentioned)).trans undefined)

/-- The names are bound first, by steps that are about other identifiers. -/
theorem function_resolves {prepare : Checker Unit} {scope : Scope}
    (frames : Frames environment (environment.places mentions) True prepare)
    (ties : (prepare.runIn environment scope state).2.Ties environment.file params)
    (named : ∀ param ∈ params, param.span ∈ mentions.map Mention.span)
    (distinct : ((mentions ++ stmtMentions stmts).map Mention.span).Nodup) (bodySpan : Span) :
    ResolvesInBody environment.file params stmts state
      ((do prepare; checkBlock (.mk stmts bodySpan) : Checker Unit).runIn environment scope
        state).2 := by
  rw [List.map_append] at distinct
  have disjoint := List.disjoint_of_nodup_append distinct
  rw [runIn_bind]
  have body := checkBlock_resolves ties (fun param member => disjoint (named param member))
    distinct.of_append_right (prepare.runIn environment scope state).1.2 bodySpan
  refine body.mono (frames scope state) fun ident inBody inside => ?_
  obtain ⟨mention, member, same⟩ := inside
  have span : ident.span = mention.span := congrArg Site.span same
  exact disjoint (span ▸ List.mem_map_of_mem member) inBody

end Functions

theorem names_mentioned (fields : List Field) (member : ident ∈ fields.flatMap Field.names) :
    ident.span ∈ (fieldMentions fields).map Mention.span := by
  induction fields with
  | nil => cases member
  | cons field later ih =>
    obtain ⟨names, type, tag, span⟩ := field
    rw [List.flatMap_cons, List.mem_append] at member
    rw [fieldMentions, List.map_append, List.map_append, List.mem_append, List.mem_append]
    rcases member with inNames | inLater
    · exact .inl (.inl (List.mem_map.mpr ⟨.plain ident, List.mem_map_of_mem inNames, rfl⟩))
    · exact .inr (ih inLater)

theorem signature_names_mentioned (member : ident ∈ signature.names) :
    ident.span ∈ signature.mentions.map Mention.span := by
  obtain ⟨params, results, span⟩ := signature
  rw [Signature.mentions, List.map_append, List.mem_append]
  exact (List.mem_append.mp member).imp (names_mentioned params) (names_mentioned results)

section Nodes

variable (environment : Environment) (state : TypingState) {stmts : List Stmt} {bodySpan : Span}

theorem literal_resolves (scope : Scope) (hint : Option TypeId)
    (distinct : ((Expr.function span signature (.mk stmts bodySpan)).mentions.map
      Mention.span).Nodup) :
    ResolvesInBody environment.file signature.names stmts state
      ((checkExpr hint (.function span signature (.mk stmts bodySpan))).runIn environment scope
        state).2 := by
  rw [Expr.mentions, Block.mentions] at distinct
  let prepare : Checker Unit := do
    let _ ← resolveSignature signature
    pushBlock
    enterFunction signature
  have resolved : Frames environment (environment.places signature.mentions) True
      (resolveSignature signature) :=
    .of_meets fun _ _ => resolveSignature_meets signature (Environment.marks_places _) trivial
  have entered : Frames environment (environment.places signature.mentions) True
      (enterFunction signature) := enterFunction_frames signature (Environment.marks_places _)
  have prepared : Frames environment (environment.places signature.mentions) True prepare :=
    resolved.bind fun _ inner => entered inner.enter
  have ties : (prepare.runIn environment scope state).2.Ties environment.file signature.names :=
    enterFunction_ties signature _ _
  exact function_resolves prepared ties (fun _ => signature_names_mentioned) distinct bodySpan

theorem declaration_resolves {func : FuncDecl} (body : func.body = some (.mk stmts bodySpan))
    (scope : Scope) (distinct : (func.mentions.map Mention.span).Nodup) :
    ResolvesInBody environment.file
      (func.receiver.toList.flatMap Field.names ++ func.signature.names) stmts state
      ((checkFunction func).runIn environment scope state).2 := by
  -- All that stands in front of the body.
  let head := fieldMentions func.receiver.toList ++ [⟨func.name, .function⟩]
    ++ func.signature.mentions
  have mentions : func.mentions = head ++ stmtMentions stmts := by
    rw [FuncDecl.mentions, body, Option.elim_some, Block.mentions]
  rw [mentions] at distinct
  have marked : environment.Marks (environment.places head) head := Environment.marks_places _
  simp only [head, Environment.marks_append] at marked
  let prepare : Checker Unit := do
    pushBlock
    let _ ← bindFields .param func.receiver.toList
    enterFunction func.signature
  have entered : Frames environment (environment.places head) True
      (enterFunction func.signature) := enterFunction_frames func.signature marked.2
  have bound : Frames environment (environment.places head) True
      (bindFields .param func.receiver.toList) := bindFields_frames .param _ marked.1.1
  have prepared : Frames environment (environment.places head) True prepare :=
    fun outer => bound.bind (fun _ => entered) outer.enter
  have ties : (prepare.runIn environment scope state).2.Ties environment.file
      (func.receiver.toList.flatMap Field.names ++ func.signature.names) :=
    ((bindFields_ties .param _ scope.enter state).mono (entered _ _)).append
      (enterFunction_ties func.signature _ _)
  have named : ∀ param ∈ func.receiver.toList.flatMap Field.names ++ func.signature.names,
      param.span ∈ head.map Mention.span := by
    intro param member
    simp only [head, List.map_append, List.mem_append]
    exact (List.mem_append.mp member).imp (fun found => .inl (names_mentioned _ found))
      signature_names_mentioned
  unfold checkFunction
  rw [body]
  exact function_resolves prepared ties named distinct bodySpan

end Nodes

/-- In every function literal and declaration whose identifiers stand at
different places, as those of a parsed file do, the targets of `:=` resolve in
the body's own block. -/
theorem targets_resolve_in_body (environment : Environment) (state : TypingState)
    (stmts : List Stmt) (bodySpan : Span) :
    (∀ scope hint span signature,
      ((Expr.function span signature (.mk stmts bodySpan)).mentions.map Mention.span).Nodup →
      ResolvesInBody environment.file signature.names stmts state
        ((checkExpr hint (.function span signature (.mk stmts bodySpan))).runIn environment scope
          state).2) ∧
    ∀ (scope : Scope) (func : FuncDecl), func.body = some (.mk stmts bodySpan) →
      (func.mentions.map Mention.span).Nodup →
      ResolvesInBody environment.file
        (func.receiver.toList.flatMap Field.names ++ func.signature.names) stmts state
        ((checkFunction func).runIn environment scope state).2 :=
  ⟨fun scope hint _ _ distinct => literal_resolves environment state scope hint distinct,
   fun scope _ body distinct => declaration_resolves environment state body scope distinct⟩

/-- In `func f(c int) { c, d := 1, 2 }` the target `c` is a new variable. -/
theorem parameter_hidden_by_target :
    let environment : Environment := ⟨"app", ⟨0⟩, 0, []⟩
    let param : Ident := ⟨"c", ⟨7, 8⟩⟩
    let ident : Ident := ⟨"c", ⟨16, 17⟩⟩
    let stmt : Stmt := .assign ⟨16, 28⟩ [.ident ident, .ident ⟨"d", ⟨19, 20⟩⟩] .define
      [.literal ⟨24, 25⟩ .int "1", .literal ⟨27, 28⟩ .int "2"]
    let func : FuncDecl :=
      { receiver := none
        name := ⟨"f", ⟨5, 6⟩⟩
        signature := .mk [.mk [param] (.name ⟨9, 12⟩ ⟨"int", ⟨9, 12⟩⟩) none ⟨7, 12⟩] [] ⟨6, 13⟩
        body := some (.mk [stmt] ⟨14, 30⟩)
        span := ⟨0, 30⟩ }
    let last := ((checkFunction func).runIn environment .empty
      ⟨Universe.initialTypes, Universe.initialSymbols, .empty, [], none⟩).2
    ∃ id symbol other, last.info.objectOf ⟨0⟩ ident = some id ∧
      last.symbols.get? id = some symbol ∧ symbol.decl = some ⟨⟨0⟩, ident.span⟩ ∧
      last.info.objectOf ⟨0⟩ param = some other ∧ other ≠ id := by
  intro environment param ident stmt func last
  have resolves := (targets_resolve_in_body environment
    ⟨Universe.initialTypes, Universe.initialSymbols, .empty, [], none⟩ [stmt] ⟨14, 30⟩).2 .empty func
    rfl (by decide)
  obtain ⟨id, symbol, found, record, _, decl, apart⟩ := resolves [] [] ident
    ⟨_, _, _, _, [], rfl, rfl, rfl⟩ rfl
  obtain ⟨other, bound, differs⟩ := apart param
    (by simp [func, Signature.names, Signature.params, Field.names]) rfl
  exact ⟨id, symbol, other, found, record, decl, bound, differs⟩

/-- A function that closes its parameter, except that the name is a target of
`:=` in between. -/
def reusedNameTree (binding : String) : SourceTree :=
  .addFile .empty "a" "a.go" ("package a
type C interface\x7bClose()\x7d
func New()C
func End(c C)\x7b" ++ binding ++ ";c.Close()\x7d")

/-- Behind `c = New()` the method call counts for the parameter; behind
`c, d := New(), 1` it does not. -/
theorem hidden_parameter_not_closed :
    (["c=New()", "c,d:=New(),1"].map fun binding =>
      (loadProgram { analysis := { disposableInterface := "a.C" } } (reusedNameTree binding)
        []).toOption.map fun program => (program.summarize {} .empty).1.snapshot) =
      [some [(⟨"a.End"⟩, true)], some [(⟨"a.End"⟩, false)]] := by
  decide +kernel

end Typing

end Unclosed
