import Unclosed.Proofs.TypingBodies
import Unclosed.Proofs.TypingSteps

/-!
Checking a body leaves a record at every node that a scan of the body asks
about.  Each value whose results may have to be closed gets a type, and each
name that a statement declares is tied to a declaration.
-/

namespace Unclosed

variable (span : Span)

/-! ### Nodes and records -/

def Stmt.operands : Stmt → List Expr
  | .expr _ operand | .defer _ operand | .go _ operand => [operand]
  | .assign _ _ (.compound _) _ => []
  | .assign _ _ _ values => values
  | .decl _ (.var specs) => specs.flatMap ValueSpec.values
  | _ => []

def Stmt.newNames : Stmt → List Ident
  | .assign _ targets .define _ => targets.filterMap Expr.ident?
  | .decl _ (.var specs) => specs.flatMap ValueSpec.names
  | _ => []

namespace TypeInfo

structure Covers (info : TypeInfo) (file : FileId) (stmt : Stmt) : Prop where
  operands : ∀ expr ∈ stmt.operands, info.Types file expr.unparen
  newNames : info.Names file stmt.newNames

def CoversBody (info : TypeInfo) (file : FileId) (func : FuncDecl) : Prop :=
  ∀ body ∈ func.body, ∀ stmt ∈ body.stmts, info.Covers file stmt

end TypeInfo

section Kept

variable {horizon : Horizon} {state next : TypingState} {file : FileId}
  (edits : Edits horizon state next)

include edits

theorem Edits.covers {stmt : Stmt} (covers : state.info.Covers file stmt) :
    next.info.Covers file stmt :=
  ⟨fun expr member => edits.types (covers.operands expr member), edits.names covers.newNames⟩

theorem Edits.coversBody {func : FuncDecl} (covers : state.info.CoversBody file func) :
    next.info.CoversBody file func :=
  fun body present stmt member => edits.covers (covers body present stmt member)

end Kept

namespace Typing

variable {horizon : Horizon} {environment : Environment} {base : TypingState} {scope : Scope}

/-! ### Last steps -/

def Leaves {α : Type} (environment : Environment) (action : Typing α)
    (holds : TypingState → Prop) : Prop :=
  ∀ state, holds ((action.run environment).run state).2

namespace Leaves

variable {α β : Type} {action : Typing α} {next : α → Typing β} {holds : TypingState → Prop}

theorem bind (second : ∀ value, Leaves environment (next value) holds) :
    Leaves environment (action >>= next) holds :=
  fun state => second _ ((action.run environment).run state).2

theorem ite {condition : Prop} [Decidable condition] {yes no : Typing α}
    (ifYes : Leaves environment yes holds) (ifNo : Leaves environment no holds) :
    Leaves environment (if condition then yes else no) holds := by
  split
  · exact ifYes
  · exact ifNo

end Leaves

abbrev LeavesType {α : Type} (environment : Environment) (span : Span) (action : Typing α) : Prop :=
  Leaves environment action fun state =>
    ∃ type, (⟨environment.file, span⟩, type) ∈ state.info.types.entries

theorem record_leaves (type : TypeId) : LeavesType environment span (record span type) :=
  fun _ => ⟨type, List.mem_cons_self⟩

theorem recordType_leaves (type : TypeId) : LeavesType environment span (recordType span type) :=
  fun _ => ⟨type, List.mem_cons_self⟩

theorem recordSymbolType_leaves (type : TypeId) (symbol : SymbolId) :
    LeavesType environment span (do
      match ← symbolKind? symbol with
      | some .typeName => recordType span type
      | _ => record span type) := by
  refine .bind fun kind => ?_
  split
  · exact recordType_leaves span type
  · exact record_leaves span type

theorem checkIdent_leaves (ident : Ident) :
    LeavesType environment ident.span (checkIdent scope ident) := by
  refine .ite (record_leaves _ _) (.bind fun found => ?_)
  cases found with
  | none => exact .bind fun _ => record_leaves _ _
  | some symbol =>
    exact .bind fun _ => .bind fun _ => .bind fun _ =>
      .ite (.bind fun _ => recordSymbolType_leaves _ _ _) (recordSymbolType_leaves _ _ _)

theorem checkQualified_leaves (package : SymbolId) (name : Ident) :
    LeavesType environment span (checkQualified span package name) := by
  refine .bind fun found => ?_
  cases found with
  | none => exact .bind fun _ => record_leaves _ _
  | some symbol =>
    exact .bind fun _ => .bind fun _ => .bind fun _ => recordSymbolType_leaves _ _ _

theorem checkSelection_leaves (operand : TypeId) (name : Ident) :
    LeavesType environment span (checkSelection span operand name) := by
  refine .bind fun state => .ite (record_leaves _ _) ?_
  split
  · next selection found =>
    cases selection with
    | method symbol _ _ => exact .bind fun _ => .bind fun _ => record_leaves _ _
    | _ => exact .bind fun _ => record_leaves _ _
  · exact .bind fun _ => record_leaves _ _

def Ends (environment : Environment) (span : Span) (action : Checker TypeId) : Prop :=
  ∀ scope, LeavesType environment span (action.run scope)

namespace Ends

variable {span} {action : Checker TypeId}

theorem bind {α : Type} {action : Checker α} {next : α → Checker TypeId}
    (second : ∀ value, Ends environment span (next value)) :
    Ends environment span (action >>= next) :=
  fun scope state => second _ _ ((action.runIn environment scope state).2)

theorem ite {condition : Prop} [Decidable condition] {yes no : Checker TypeId}
    (ifYes : Ends environment span yes) (ifNo : Ends environment span no) :
    Ends environment span (if condition then yes else no) := by
  split
  · exact ifYes
  · exact ifNo

theorem lift {action : Typing TypeId} (leaves : LeavesType environment span action) :
    Ends environment span (liftM action) :=
  fun _ => leaves

theorem record (type : TypeId) : Ends environment span (liftM (record span type)) :=
  lift (record_leaves span type)

theorem recordType (type : TypeId) : Ends environment span (liftM (recordType span type)) :=
  lift (recordType_leaves span type)

theorem and_looks {post : TypingState → TypeId → Prop} (ends : Ends environment span action)
    (looks : Looks horizon environment base scope action post) :
    Looks horizon environment base scope action fun state value => post state value ∧
      ∃ type, (⟨environment.file, span⟩, type) ∈ state.info.types.entries := by
  intro state reached confined
  obtain ⟨edits, same, holds⟩ := looks state reached confined
  exact ⟨edits, same, holds, ends scope state⟩

end Ends

/-- The last thing that checking an expression does is to record its type. -/
theorem checkExpr_ends (hint : Option TypeId) (expr : Expr) :
    Ends environment expr.span (checkExpr hint expr) := by
  cases expr with
  | ident name =>
    rw [checkExpr]
    exact .bind fun _ => .lift (checkIdent_leaves name)
  | literal span kind text =>
    rw [checkExpr]
    exact .record _
  | composite span type elements | binary span op left right =>
    rw [checkExpr]
    exact .bind fun _ => .bind fun _ => .bind fun _ => .record _
  | function span signature body =>
    rw [checkExpr]
    exact .bind fun _ => .bind fun _ => .bind fun _ => .bind fun _ => .bind fun _ => .bind fun _ =>
      .record _
  | keyValue span key value | typeAssert span operand type =>
    rw [checkExpr]
    exact .bind fun _ => .bind fun _ => .record _
  | paren span inner =>
    rw [checkExpr]
    exact .bind fun _ => .bind fun _ => .ite (.recordType _) (.record _)
  | selector span operand name =>
    rw [checkExpr]
    refine .bind fun _ => .bind fun found => ?_
    cases found with
    | some imported => exact .bind fun _ => .lift (checkQualified_leaves _ _ _)
    | none => exact .bind fun _ => .lift (checkSelection_leaves _ _ _)
  | index span operand index =>
    rw [checkExpr]
    exact .bind fun _ => .bind fun _ => .bind fun _ => .bind fun _ => .record _
  | slice span operand low high max =>
    rw [checkExpr]
    exact .bind fun _ => .bind fun _ => .bind fun _ => .bind fun _ => .bind fun _ => .record _
  | call span callee arguments spread =>
    rw [checkExpr]
    refine .bind fun _ => .bind fun found => ?_
    cases found with
    | some builtin => exact .bind fun _ => .bind fun _ => .bind fun _ => .record _
    | none =>
      refine .bind fun _ => .bind fun _ => .ite (.bind fun _ => .record _) ?_
      refine .bind fun func => ?_
      cases func with
      | none => exact .bind fun _ => .record _
      | some func => exact .bind fun _ => .bind fun _ => .bind fun _ => .record _
  | star span operand =>
    rw [checkExpr]
    exact .bind fun _ => .bind fun _ =>
      .ite (.bind fun _ => .recordType _) (.bind fun _ => .record _)
  | unary span op operand =>
    cases op with
    | addr =>
      rw [checkExpr]
      exact .bind fun _ => .bind fun _ => .bind fun _ => .record _
    | _ =>
      exact .bind fun _ => .bind fun _ => .record _
  | type type =>
    rw [checkExpr]
    exact .bind fun _ => .recordType _

/-! ### Values and names -/

theorem checkExpr_types {hint : Option TypeId} (expr : Expr)
    (plain : horizon.Respects environment expr.mentions)
    (within : scope.Within horizon environment base.symbols.size)
    (hinted : ∀ type ∈ hint, horizon.Seen type) :
    Looks horizon environment base scope (checkExpr hint expr) fun state type =>
      horizon.Seen type ∧ state.info.Types environment.file expr.unparen := by
  cases expr with
  | paren span inner =>
    rw [Expr.mentions] at plain
    rw [checkExpr]
    refine .look (checkExpr_types inner plain within hinted) fun type later _ known => ?_
    have recorded : Looks horizon environment later scope (do
        if ← denotesType inner then recordType span type else record span type)
        fun _ => horizon.Seen :=
      .seq (.lift (denotesType_meets inner)) fun _ _ =>
        .ite (fun _ => .lift (recordType_meets span known.1))
          fun _ => .lift (record_meets span known.1)
    refine recorded.weaken fun _ _ _ reached result => ⟨result.1, result.2, ?_⟩
    rw [Expr.unparen]
    exact reached.types known.2
  | _ => exact (checkExpr_ends hint _).and_looks (checkExpr_meets _ plain within hinted)

theorem checkHinted_types {hints : List (Option TypeId)} (exprs : List Expr)
    (plain : horizon.Respects environment (exprMentions exprs))
    (within : scope.Within horizon environment base.symbols.size)
    (hinted : ∀ hint ∈ hints, ∀ type ∈ hint, horizon.Seen type) :
    Looks horizon environment base scope (checkHinted hints exprs) fun state types =>
      (∀ type ∈ types, horizon.Seen type) ∧
        ∀ expr ∈ exprs, state.info.Types environment.file expr.unparen := by
  induction exprs generalizing hints base with
  | nil =>
    rw [checkHinted]
    exact .pure (by simp)
  | cons expr later ih =>
    rw [exprMentions, Horizon.respects_append] at plain
    rw [checkHinted]
    refine .look (checkExpr_types expr plain.1 within (head_hinted hinted))
      fun type _ edits known => ?_
    refine .look (ih plain.2 (within.mono edits.symbols_le)
      (tail_hinted hinted)) fun types _ laterEdits knownLater => ?_
    exact .pure fun _ reached =>
      ⟨List.forall_mem_cons.mpr ⟨known.1, knownLater.1⟩, List.forall_mem_cons.mpr
        ⟨(laterEdits.trans reached).types known.2,
         fun other member => reached.types (knownLater.2 other member)⟩⟩

/-! ### Statements -/

theorem checkVars_covers (specs : List ValueSpec)
    (plain : horizon.Respects environment (valueSpecMentions specs))
    (within : scope.Within horizon environment base.symbols.size)
    (inner : scope.isPackage = false) :
    Moves horizon environment base scope (checkVars specs) fun state _ next =>
      scope.Follows horizon environment state next ∧
        state.info.Covers environment.file (.decl span (.var specs)) := by
  induction specs generalizing scope base with
  | nil =>
    rw [checkVars]
    exact .stop fun _ reached => ⟨.stay within reached, by simp [Stmt.operands],
      TypeInfo.names_nil _ _⟩
  | cons spec later ih =>
    cases spec with
    | mk names type values position specSpan =>
      simp only [valueSpecMentions, Horizon.respects_append] at plain
      rw [checkVars]
      refine .seq (resolveOptional_meets type plain.1.1.2 within) fun declared sees => ?_
      refine .look (checkHinted_types values plain.1.2 within
        (bindingHints_seen _ _ (replicate_hinted _ sees))) fun _ checked edits known => ?_
      have withinNext := within.mono edits.symbols_le
      refine .seq (.lift (unpack_meets withinNext _ values known.1)) fun _ seesTypes => ?_
      refine .bind (bindNames_meets .var sees names plain.1.1.1 seesTypes
        ⟨withinNext, fun _ => trivial⟩) fun _ bound declared nameEdits binds => ?_
      refine (ih plain.2 binds.1.within (binds.1.grows.isPackage.trans inner)).weaken
        fun state _ next reached result => ⟨binds.1.trans result.1, ?_, ?_⟩
      · exact List.forall_mem_append.mpr
          ⟨fun expr member => (nameEdits.trans reached).types (known.2 expr member),
           result.2.operands⟩
      · exact TypeInfo.names_append.mpr
          ⟨reached.names (.of_single (binds.2 inner)), result.2.newNames⟩

theorem checkStmt_covers (stmt : Stmt) (plain : horizon.Respects environment stmt.mentions)
    (within : scope.Within horizon environment base.symbols.size)
    (inner : scope.isPackage = false) :
    Moves horizon environment base scope (checkStmt stmt) fun state _ next =>
      scope.Follows horizon environment state next ∧ state.info.Covers environment.file stmt := by
  have follows : Moves horizon environment base scope (checkStmt stmt) fun state _ next =>
      scope.Follows horizon environment state next :=
    checkStmt_meets stmt plain ⟨within, fun _ => trivial⟩
  -- Only the statements below have values or new names.
  have other (noOperand : stmt.operands = []) (noName : stmt.newNames = []) :
      Moves horizon environment base scope (checkStmt stmt) fun state _ next =>
        scope.Follows horizon environment state next ∧
          state.info.Covers environment.file stmt :=
    follows.weaken fun _ _ _ _ follows =>
      ⟨follows, by simp [noOperand], noName ▸ TypeInfo.names_nil _ _⟩
  have single (operand : Expr) (plain : horizon.Respects environment operand.mentions)
      (operands : stmt.operands = [operand]) (noName : stmt.newNames = []) :
      Moves horizon environment base scope (do
        let _ ← checkExpr none operand) fun state _ next =>
          scope.Follows horizon environment state next ∧
            state.info.Covers environment.file stmt :=
    .look (checkExpr_types operand plain within (by simp)) fun _ _ edits known =>
      .stop fun _ reached => ⟨.stay within (edits.trans reached),
        by simpa [operands] using reached.types known.2, noName ▸ TypeInfo.names_nil _ _⟩
  cases stmt with
  | expr span operand | defer span operand | go span operand =>
    rw [Stmt.mentions] at plain
    rw [checkStmt]
    exact single operand plain rfl rfl
  | assign span targets op values =>
    rw [Stmt.mentions, Horizon.respects_append] at plain
    cases op with
    | compound binary => exact other rfl rfl
    | assign =>
      exact .seq (checkTargets_meets targets plain.1 within) fun _ sees =>
        .look (checkHinted_types values plain.2 within (bindingHints_seen _ _ sees))
          fun _ _ edits known => .stop fun _ reached => ⟨.stay within (edits.trans reached),
            fun expr member => reached.types (known.2 expr member), TypeInfo.names_nil _ _⟩
    | define =>
      rw [checkStmt]
      refine .look (checkHinted_types values plain.2 within
        (bindingHints_seen _ _ (by simp))) fun _ _ edits known => ?_
      have withinNext := within.mono edits.symbols_le
      refine .seq (.lift (unpack_meets withinNext _ values known.1)) fun _ sees => ?_
      have allowed : (laws horizon environment).Allows (exprMentions targets) := plain.1
      exact (defineTargets_meets targets allowed sees withinNext).weaken
        fun _ _ _ reached result => ⟨result.1,
          fun expr member => reached.types (known.2 expr member), .of_single result.2⟩
  | decl span decl =>
    cases decl with
    | var specs =>
      rw [Stmt.mentions, Decl.mentions] at plain
      rw [checkStmt, checkDecl]
      exact checkVars_covers span specs plain within inner
    | _ => exact other rfl rfl
  | _ => exact other rfl rfl

theorem checkStmts_covers (stmts : List Stmt)
    (plain : horizon.Respects environment (stmtMentions stmts))
    (within : scope.Within horizon environment base.symbols.size)
    (inner : scope.isPackage = false) :
    Moves horizon environment base scope (checkStmts stmts) fun state _ next =>
      scope.Grows next ∧ ∀ stmt ∈ stmts, state.info.Covers environment.file stmt := by
  induction stmts generalizing scope base with
  | nil =>
    rw [checkStmts]
    exact .stop fun _ _ => ⟨.refl scope, by simp⟩
  | cons stmt later ih =>
    rw [stmtMentions, Horizon.respects_append] at plain
    rw [checkStmts]
    refine .bind (checkStmt_covers stmt plain.1 within inner) fun _ next _ _ first => ?_
    have grows := first.1.grows
    exact (ih plain.2 first.1.within (grows.isPackage.trans inner)).weaken
      fun _ _ _ reached others => ⟨grows.trans others.1,
        List.forall_mem_cons.mpr ⟨reached.covers first.2, others.2⟩⟩

theorem checkBlock_covers (block : Block) (plain : horizon.Respects environment block.mentions)
    (within : scope.Within horizon environment base.symbols.size) :
    Looks horizon environment base scope (checkBlock block) fun state _ =>
      ∀ stmt ∈ block.stmts, state.info.Covers environment.file stmt := by
  cases block with
  | mk stmts span =>
    rw [Block.mentions] at plain
    rw [checkBlock]
    exact .change (.bind (checkStmts_covers stmts plain within.enter rfl) fun _ _ _ _ covers =>
      .left covers.1 fun _ reached => ⟨rfl, fun stmt member =>
        reached.covers (covers.2 stmt member)⟩)

end Typing

end Unclosed
