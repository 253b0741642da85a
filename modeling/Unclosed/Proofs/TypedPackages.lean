import Unclosed.Proofs.PackageLaws
import Unclosed.Proofs.RecordedNodes

/-!
Checking a whole package stays within its horizon: all that it leaves in the
tables and in its records comes from edits, and its names denote declarations
that it knows.  The statements of all function bodies are covered by the records.
-/

namespace Unclosed

/-- A file is placed within a horizon: what it imports is known, and its
identifiers do what the horizon says. -/
structure Typing.FileUnit.Within (horizon : Horizon) (count : Nat) (unit : Typing.FileUnit) :
    Prop where
  outer : unit.environment.Within horizon count
  plain : horizon.Respects unit.environment unit.file.mentions

/-- The names of the package and of its imports are known, and no function has
been entered. -/
structure Scope.Bound (horizon : Horizon) (count : Nat) (scope : Scope) : Prop where
  packageNames : horizon.Binds count scope.packageNames
  fileNames : ∀ names ∈ scope.fileNames, horizon.Binds count names
  blocks : scope.blocks = []
  results : scope.results = []

namespace Scope.Bound

variable {horizon : Horizon} {environment : Environment} {scope : Scope} {count larger : Nat}
  (bound : scope.Bound horizon count)

include bound

theorem within (outer : environment.Within horizon count) :
    scope.Within horizon environment count :=
  ⟨outer, bound.packageNames, bound.fileNames, by simp [bound.blocks], by simp [bound.results]⟩

theorem isPackage : scope.isPackage = true := by
  rw [Scope.isPackage, bound.blocks, List.isEmpty_nil]

theorem mono (le : count ≤ larger) : scope.Bound horizon larger :=
  { bound with
    packageNames := bound.packageNames.mono le
    fileNames := fun names member => (bound.fileNames names member).mono le }

end Scope.Bound

namespace Typing

variable {horizon : Horizon} {environment : Environment} {base : TypingState} {scope : Scope}
  {names : Bindings}
  {unit : FileUnit} {count : Nat} {func : FuncDecl}

theorem FileUnit.Within.mono {larger : Nat} (within : unit.Within horizon count)
    (le : count ≤ larger) : unit.Within horizon larger :=
  ⟨within.outer.mono le, within.plain⟩

/-! ### Imports -/

/-- The declaration that stands for an imported package, tied to its new name if
it has one. -/
theorem addImport_meets {β : Type} {symbol : Symbol} (own : symbol.package = horizon.package)
    (untyped : symbol.type = TypeTable.invalid) (rename : Option Ident)
    {next : SymbolId → Typing β} {post : TypingState → β → Prop}
    (second : ∀ id later, Edits horizon base later → horizon.Reaches later.symbols.size id →
      Meets horizon environment later (next id) post) :
    Meets horizon environment base (do
      let id ← addSymbol symbol
      if let some ident := rename then recordDef ident id
      next id) post := by
  intro state reached confined
  have last : horizon.Reaches (state.symbols.add symbol).2.size ⟨state.symbols.size⟩ :=
    ⟨by simp [SymbolTable.add_size], .inl confined.symbols_le⟩
  -- The record of the name and the declaration are one step: in between, nothing
  -- would say that the declaration is not recorded elsewhere.
  have continued (after : TypingState) (edits : Edits horizon state after)
      (reaches : horizon.Reaches after.symbols.size ⟨state.symbols.size⟩) :=
    second _ after (reached.trans edits) reaches after (.refl after) (edits.confined confined)
  cases rename with
  | none =>
    have edits := edits_declare confined symbol own untyped ⟨environment.file, default⟩
    have rest := continued _ (.single edits.1) last
    exact ⟨(Edits.single edits.1).trans rest.1, rest.2⟩
  | some ident =>
    have edits := edits_declare confined symbol own untyped ⟨environment.file, ident.span⟩
    have both := (Edits.single edits.1).trans (.single edits.2)
    have rest := continued _ both last
    exact ⟨both.trans rest.1, rest.2⟩

theorem importNames_meets (specs : List ImportSpec)
    (within : environment.Within horizon base.symbols.size)
    (binds : horizon.Binds base.symbols.size names) :
    Meets horizon environment base (importNames specs names) fun state names =>
      horizon.Binds state.symbols.size names := by
  induction specs generalizing names base with
  | nil => exact .pure fun _ reached => binds.mono reached.symbols_le
  | cons spec later ih =>
    rw [importNames]
    refine .read ?_
    split
    · exact .seq (report_meets _ _) fun _ _ => ih within binds
    · next declared listed =>
      have bindsDeclared := within.imported (spec.path, declared) (Horizon.mem_of_lookup listed)
      refine .ite (fun _ => ih within binds) fun _ =>
        .ite (fun _ => ih within ?_) fun _ => ?_
      · intro entry member
        rcases List.mem_append.mp member with exported | member
        · exact bindsDeclared entry (List.mem_filter.mp (List.mem_reverse.mp exported)).1
        · exact binds entry member
      · exact addImport_meets within.package rfl spec.rename fun id later edits reaches =>
          ih (within.mono edits.symbols_le)
            (List.forall_mem_cons.mpr ⟨reaches, binds.mono edits.symbols_le⟩)

/-! ### Declared names -/

theorem declareName_meets (binds : horizon.Binds base.symbols.size names) (ident : Ident)
    {symbol : SymbolId} (reaches : horizon.Reaches base.symbols.size symbol) :
    Meets horizon environment base (declareName names ident symbol) fun state names =>
      horizon.Binds state.symbols.size names := by
  have unchanged : Meets horizon environment base (Pure.pure names) fun state names =>
      horizon.Binds state.symbols.size names :=
    .pure fun _ reached => binds.mono reached.symbols_le
  refine .ite (fun _ => unchanged) fun _ => .ite (fun _ => ?_) fun _ => .pure fun _ reached => ?_
  · exact .seq (report_meets _ _) fun _ _ => unchanged
  · have extended : horizon.Binds base.symbols.size (names ++ [(ident.name, symbol)]) :=
      List.forall_mem_append.mpr ⟨binds, by simpa using reaches⟩
    exact extended.mono reached.symbols_le

/-! ### Methods -/

theorem receiverBase_mentions {type name : TypeExpr} {pointer : Bool}
    (same : receiverBase type = (name, pointer)) : name.mentions = type.mentions := by
  cases type with
  | pointer span elem =>
    cases same
    simp only [TypeExpr.mentions]
  | _ =>
    cases same
    rfl

theorem receiverType?_meets (binds : horizon.Binds base.symbols.size names)
    {name : Ident} (plain : horizon.Respects environment [.plain name]) :
    Meets horizon environment base (receiverType? names name) fun _ _ => True := by
  unfold receiverType?
  split
  · exact .pure fun _ _ => trivial
  · next symbol found =>
    have reaches := binds.lookup found
    exact .bind (recordUse_meets (plain _ List.mem_cons_self) reaches) fun _ _ edits _ =>
      .seq (symbolType_meets (reaches.mono edits.symbols_le)) fun _ _ =>
        .get fun _ _ _ => .pure fun _ _ => trivial

theorem addMethod_meets {site : Site} {type : TypeId} {method : Method}
    (defined : (site, method.symbol) ∈ base.info.defs.entries)
    (sees : horizon.Seen method.signature) :
    Meets horizon environment base (stepTypes fun types => ((), types.addMethod type method))
      fun _ _ => True := by
  intro state reached confined
  obtain ⟨own, lt⟩ := confined.defs site method.symbol (reached.defs_subset defined)
  exact ⟨.single (.method state sees own lt), trivial⟩

theorem declareMethod_meets (within : scope.Within horizon environment base.symbols.size)
    {receiver : Field} (role : horizon.role ⟨environment.file, func.name.span⟩ = .function)
    (plain : horizon.Respects environment receiver.type.mentions) {signature : TypeId}
    (sees : horizon.Seen signature) :
    Meets horizon environment base (declareMethod scope.packageNames func receiver signature)
      fun _ _ => True := by
  unfold declareMethod
  split
  · next span typeName pointer same =>
    have plainName : horizon.Respects environment [.plain typeName] := by
      rwa [← receiverBase_mentions same, TypeExpr.mentions] at plain
    refine .seq (receiverType?_meets within.packageNames plainName) fun found _ => ?_
    cases found with
    | none => exact report_meets _ _
    | some named =>
      refine .read (.bind (declare_meets within.outer .method func.name true _)
        fun symbol _ edits declared => ?_)
      exact .seq (setSymbolType_meets declared.2 sees (by simp [role])) fun _ _ =>
        addMethod_meets declared.2 sees
  · exact report_meets _ _

/-! ### Laws -/

def packageLaws (horizon : Horizon) (environment : Environment) : PackageLaws environment where
  toLaws := laws horizon environment
  settles := trivial
  Collected _ state names := horizon.Binds state.symbols.size names
  collected_mono edits binds := binds.mono edits.symbols_le
  collectFunction {_ base _ names} func within binds := by
    refine .ite (fun _ => .pure fun _ reached => binds.mono reached.symbols_le) fun _ => .read ?_
    refine .bind (declare_meets within.outer .func func.name true _) fun _ _ edits declared => ?_
    have bindsNext := binds.mono edits.symbols_le
    exact .ite (fun _ => .pure fun _ reached => bindsNext.mono reached.symbols_le) fun _ =>
      declareName_meets bindsNext func.name declared.1
  collectValue kind ident within binds :=
    .bind (declare_meets within.outer kind ident true none) fun _ _ edits declared =>
      declareName_meets (binds.mono edits.symbols_le) ident declared.1
  collectType name isAlias within binds :=
    .bind (declareTypeName_meets within.outer true name isAlias) fun _ _ edits reaches =>
      declareName_meets (binds.mono edits.symbols_le) name reaches
  completeType := completeType_meets
  declareMethod within role plain sees := declareMethod_meets within role plain sees
  settleFunction {state name id type} confined role sees found := by
    refine edits_retype confined (Horizon.mem_of_lookup found) sees fun newType => ?_
    rw [show horizon.role ⟨environment.file, name.span⟩ = .function from role] at newType
    cases newType

/-! ### Bodies -/

theorem checkFunction_meets (plain : horizon.Respects environment func.mentions)
    (within : scope.Within horizon environment base.symbols.size) :
    Looks horizon environment base scope (checkFunction func) fun state _ =>
      state.info.CoversBody environment.file func := by
  simp only [FuncDecl.mentions, Horizon.respects_append] at plain
  obtain ⟨⟨⟨plainReceiver, _⟩, plainSignature⟩, plainBody⟩ := plain
  unfold checkFunction
  split
  · next absent => exact .pure fun _ _ => by simp [TypeInfo.CoversBody, absent]
  · next body present =>
    rw [present] at plainBody
    refine .change (.bind (bindFields_meets .param _ plainReceiver within.enter)
      fun _ bound _ _ binds => ?_)
    refine .bind (enterFunction_meets func.signature plainSignature binds.1.1)
      fun _ _ _ _ entered => ?_
    refine .look (checkBlock_covers body plainBody entered.1) fun _ _ _ covers => ?_
    refine .change (.left (binds.1.2.trans entered.2) fun _ reached => ⟨rfl, ?_⟩)
    simpa [TypeInfo.CoversBody, present] using fun stmt member =>
      reached.covers (covers stmt member)

theorem checkFunctions_meets (functions : List FuncDecl)
    (plain : ∀ func ∈ functions, horizon.Respects environment func.mentions)
    (within : scope.Within horizon environment base.symbols.size) :
    Looks horizon environment base scope (checkFunctions functions) fun state _ =>
      ∀ func ∈ functions, state.info.CoversBody environment.file func := by
  induction functions generalizing base with
  | nil => exact .pure (by simp)
  | cons func later ih =>
    rw [List.forall_mem_cons] at plain
    refine .look (checkFunction_meets plain.1 within) fun _ _ edits covers => ?_
    exact (ih plain.2 (within.mono edits.symbols_le)).weaken fun _ _ _ reached others =>
      ⟨others.1, List.forall_mem_cons.mpr ⟨reached.coversBody covers, others.2⟩⟩

/-! ### Files -/

theorem FileUnit.Within.decls (within : unit.Within horizon count) :
    horizon.Respects unit.environment (unit.file.decls.flatMap TopLevel.mentions) :=
  ((Horizon.respects_append _ _).mp within.plain).2

theorem FileUnit.Within.functions (within : unit.Within horizon count) :
    ∀ func ∈ unit.file.functions, horizon.Respects unit.environment func.mentions := by
  intro func member mention inFunc
  obtain ⟨decl, inDecls, same⟩ := List.mem_filterMap.mp member
  cases decl with
  | func other =>
    cases same
    exact within.decls mention (List.mem_flatMap.mpr ⟨.func func, inDecls, inFunc⟩)
  | decl other => cases same

section Files

variable {step : SyntaxFile → Checker Unit} {units : List FileUnit}
  (within : ∀ unit ∈ units, unit.Within horizon base.symbols.size)
  (bound : scope.Bound horizon base.symbols.size)

include within bound

theorem forEachFile_proceeds
    (each : ∀ (unit : FileUnit) base scope, unit.Within horizon base.symbols.size →
      scope.Bound horizon base.symbols.size →
        Moves horizon unit.environment base scope (step unit.file) fun state _ next =>
          next.Bound horizon state.symbols.size) :
    Proceeds horizon base (forEachFile step units scope) fun state next =>
      next.Bound horizon state.symbols.size := by
  induction units generalizing base scope with
  | nil => exact .pure fun _ reached => bound.mono reached.symbols_le
  | cons unit later ih =>
    rw [List.forall_mem_cons] at within
    exact .bind (each unit base scope within.1 bound).proceeds fun _ _ edits boundNext =>
      ih (fun other member => (within.2 other member).mono edits.symbols_le) boundNext

/-- A phase that only looks at the scope. -/
theorem forEachFile_looks
    (each : ∀ (unit : FileUnit) base scope, unit.Within horizon base.symbols.size →
      scope.Bound horizon base.symbols.size →
        Looks horizon unit.environment base scope (step unit.file) fun _ _ => True) :
    Proceeds horizon base (forEachFile step units scope) fun state next =>
      next.Bound horizon state.symbols.size := by
  refine forEachFile_proceeds within bound fun unit base scope within bound =>
    (each unit base scope within bound).weaken fun _ _ _ reached same => ?_
  rw [same.1]
  exact bound.mono reached.symbols_le

theorem importFiles_proceeds :
    Proceeds horizon base (forEachFile importFile units scope) fun state next =>
      next.Bound horizon state.symbols.size := by
  refine forEachFile_proceeds within bound fun unit base scope within bound => ?_
  refine .step (importNames_meets unit.file.imports within.outer (by simp [Horizon.Binds]))
    fun names _ edits binds => ?_
  have boundNext := bound.mono edits.symbols_le
  exact fun state reached _ => ⟨.refl state, Scope.Bound.mono { boundNext with
    fileNames := List.forall_mem_append.mpr ⟨boundNext.fileNames, by simpa using binds⟩ }
    reached.symbols_le⟩

theorem collectFiles_proceeds :
    Proceeds horizon base (forEachFile collectFile units scope) fun state next =>
      next.Bound horizon state.symbols.size := by
  refine forEachFile_proceeds within bound fun unit base scope within bound => .get ?_
  have collects := @collectNames_meets _ (packageLaws horizon unit.environment) _ _ _ []
    (bound.within within.outer) bound.packageNames unit.file.decls
  refine .step collects fun names _ edits binds => ?_
  exact fun state reached _ => ⟨.refl state,
    Scope.Bound.mono { bound.mono edits.symbols_le with packageNames := binds } reached.symbols_le⟩

def FileUnit.Covered (state : TypingState) (unit : FileUnit) : Prop :=
  ∀ func ∈ unit.file.functions, state.info.CoversBody unit.environment.file func

theorem checkBodies_proceeds :
    Proceeds horizon base (forEachFile (fun file => checkFunctions file.functions) units scope)
      fun state next => next.Bound horizon state.symbols.size ∧
        ∀ unit ∈ units, unit.Covered state := by
  induction units generalizing base with
  | nil => exact .pure fun _ reached => ⟨bound.mono reached.symbols_le, by simp⟩
  | cons unit later ih =>
    rw [List.forall_mem_cons] at within
    refine .bind (Moves.proceeds (checkFunctions_meets _ within.1.functions
      (bound.within within.1.outer))) fun result _ edits covers => ?_
    obtain ⟨_, next⟩ := result
    obtain ⟨rfl, covers⟩ := covers
    refine (ih (fun other member => (within.2 other member).mono edits.symbols_le)
      (bound.mono edits.symbols_le)).weaken fun _ _ reached others => ⟨others.1, ?_⟩
    exact List.forall_mem_cons.mpr
      ⟨fun func member => reached.coversBody (covers func member), others.2⟩

end Files

structure Surroundings (horizon : Horizon) (imported : List (String × Bindings))
    (files : List NumberedFile) (count : Nat) : Prop where
  imported : ∀ entry ∈ imported, horizon.Binds count entry.2
  predeclared : ∀ id : SymbolId, id.index < Universe.initialSymbols.size → horizon.Reaches count id
  predeclaredTypes : ∀ type : TypeId, type.index < Universe.initialTypes.size → horizon.Seen type
  roles : ∀ numbered ∈ files, ∀ mention ∈ numbered.file.mentions,
    horizon.role ⟨numbered.id, mention.span⟩ = mention.role

section Package

variable {imported : List (String × Bindings)} {files : List NumberedFile}

theorem fileUnits_within (around : Surroundings horizon imported files base.symbols.size) :
    ∀ unit ∈ fileUnits horizon.package imported files, unit.Within horizon base.symbols.size := by
  intro unit member
  obtain ⟨⟨numbered, place⟩, inFiles, rfl⟩ := List.mem_map.mp member
  exact ⟨⟨rfl, around.imported, around.predeclared, around.predeclaredTypes⟩,
    around.roles numbered (List.fst_mem_of_mem_zipIdx inFiles)⟩

theorem checkFiles_proceeds (around : Surroundings horizon imported files base.symbols.size) :
    Proceeds horizon base (checkFiles horizon.package imported files) fun state names =>
      horizon.Binds state.symbols.size names ∧
        ∀ numbered ∈ files, ∀ func ∈ numbered.file.functions,
          state.info.CoversBody numbered.id func := by
  have within := fileUnits_within around
  have later {state : TypingState} (edits : Edits horizon base state) :
      ∀ unit ∈ fileUnits horizon.package imported files, unit.Within horizon state.symbols.size :=
    fun unit member => (within unit member).mono edits.symbols_le
  refine .bind (importFiles_proceeds within ⟨by simp [Scope.empty, Horizon.Binds],
    by simp [Scope.empty], rfl, rfl⟩) fun _ _ first bound => ?_
  refine .bind (collectFiles_proceeds (later first) bound) fun _ _ edits bound => ?_
  replace first := first.trans edits
  refine .bind (forEachFile_looks (later first) bound fun unit _ _ within bound =>
    resolveTypes_meets (packageLaws horizon _) (bound.within within.outer) _ within.decls)
    fun _ _ edits bound => ?_
  replace first := first.trans edits
  refine .bind (forEachFile_looks (later first) bound fun unit _ _ within bound =>
    resolveFunctions_meets (packageLaws horizon _) (bound.within within.outer) _ within.functions)
    fun _ _ edits bound => ?_
  replace first := first.trans edits
  refine .bind (forEachFile_looks (later first) bound fun unit _ _ within bound =>
    checkValues_meets (packageLaws horizon _) (bound.within within.outer) bound.isPackage _
      within.decls) fun _ _ edits bound => ?_
  refine .bind (checkBodies_proceeds (later (first.trans edits)) bound)
    fun _ _ _ ⟨bound, covered⟩ => .pure fun _ reached =>
      ⟨bound.packageNames.mono reached.symbols_le, ?_⟩
  intro numbered inFiles func inFile
  obtain ⟨place, found⟩ := List.getElem?_of_mem inFiles
  have placed := List.mk_mem_zipIdx_iff_getElem?.mpr found
  exact reached.coversBody (covered _ (List.mem_map.mpr ⟨_, placed, rfl⟩) func inFile)

end Package

end Typing

end Unclosed
