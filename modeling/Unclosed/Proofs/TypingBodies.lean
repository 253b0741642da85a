import Unclosed.Proofs.TypingRegimes

/-!
Checking an expression, a type expression or a statement keeps to the laws,
whatever it is.
-/

namespace Unclosed

variable {type : TypeId} {hints : List (Option TypeId)}

def TypeTable.ElementHints.Within (seen : TypeId → Prop) : TypeTable.ElementHints → Prop
  | .fields declared => ∀ field ∈ declared, seen field.type
  | .plain key value => (∀ type ∈ key, seen type) ∧ ∀ type ∈ value, seen type

theorem TypeTable.Closed.elementHints {table : TypeTable} {seen : TypeId → Prop}
    (closed : table.Closed seen) (sees : seen type) :
    (table.elementHints type).Within seen := by
  have behind : seen ((table.pointerElem? type).getD type) := by
    cases found : table.pointerElem? type with
    | none => exact sees
    | some elem => exact closed.pointerElem? found sees
  have parts := closed.underlyingKind behind
  unfold TypeTable.elementHints
  split
  · next fields kind =>
    intro field member
    exact parts _ (by simpa [kind] using ⟨field, member, rfl⟩)
  · next kind => exact ⟨by simp, by simpa [kind] using parts⟩
  · next kind => exact ⟨by simp, by simpa [kind] using parts⟩
  · next kind => simpa [kind, ElementHints.Within] using parts
  · exact ⟨by simp, by simp⟩

/-- The identifiers that a statement declares in a block that binds the given
names, the latest first. -/
def Stmt.adds : Stmt → List String → List Ident
  | .assign _ targets .define _ => newTargets targets
  | .decl _ (.var specs) | .decl _ (.const specs) =>
    fun _ => localNames (specs.flatMap ValueSpec.names)
  | .decl _ (.type specs) => fun _ => (specs.map TypeSpec.name).reverse
  | .labeled _ _ stmt => stmt.adds
  | _ => fun _ => []

def blockAdds : List Stmt → List String → List Ident
  | [] => fun _ => []
  | stmt :: later => thenAdds stmt.adds (blockAdds later)

namespace Typing

open Laws (allows_append allows_cons)

variable {environment : Environment} {laws : Laws environment}

section Hints

variable {seen : TypeId → Prop}

/-- The hint for the next element and those for the others. -/
theorem head_hinted (sees : ∀ hint ∈ hints, ∀ type ∈ hint, seen type) :
    ∀ type ∈ hints.head?.bind id, seen type := by
  cases hints with
  | nil => simp
  | cons hint later => exact sees hint List.mem_cons_self

theorem tail_hinted (sees : ∀ hint ∈ hints, ∀ type ∈ hint, seen type) :
    ∀ hint ∈ hints.tail, ∀ type ∈ hint, seen type :=
  fun hint member => sees hint (List.mem_of_mem_tail member)

theorem structFields_seen (file : FileId) (names : List Ident) (syntaxType : TypeExpr)
    (sees : seen type) :
    ∀ field ∈ structFields file names syntaxType type, seen field.type := by
  intro field member
  unfold structFields at member
  split at member
  · rw [List.mem_singleton.mp member]
    exact sees
  · obtain ⟨name, _, rfl⟩ := List.mem_map.mp member
    exact sees

theorem replicate_seen (count : Nat) (sees : seen type) {later : List TypeId}
    (seesLater : ∀ type ∈ later, seen type) :
    ∀ other ∈ List.replicate count type ++ later, seen other := by
  intro other member
  rcases List.mem_append.mp member with member | member
  · rw [List.eq_of_mem_replicate member]
    exact sees
  · exact seesLater other member

theorem replicate_hinted (count : Nat) {hint : Option TypeId}
    (sees : ∀ type ∈ hint, seen type) :
    ∀ other ∈ List.replicate count hint, ∀ type ∈ other, seen type := by
  intro other member
  rw [List.eq_of_mem_replicate member]
  exact sees

end Hints

/-- A constant declaration may be checked again wherever a later one repeats
it. -/
def Repeatable (laws : Laws environment) (check : Nat → Checker (Option TypeId × List TypeId)) :
    Prop :=
  ∀ (base : TypingState) (scope : Scope) (count : Nat), laws.Fits base scope →
    laws.Looks base scope (check count) fun _ result =>
      (∀ type ∈ result.1, laws.Seen type) ∧ ∀ type ∈ result.2, laws.Seen type

section Repetition

variable {own : Nat → Checker (Option TypeId × List TypeId)}
  {latest : Option (Nat → Checker (Option TypeId × List TypeId))}
  (ownRepeatable : Repeatable laws own)
  (repeatable : ∀ check ∈ latest, Repeatable laws check) (repeats : Bool)

include ownRepeatable repeatable

theorem repeatable_check : Repeatable laws (if repeats then latest.getD own else own) := by
  cases repeats with
  | false => exact ownRepeatable
  | true =>
    cases latest with
    | none => exact ownRepeatable
    | some check => exact repeatable check rfl

theorem repeatable_latest :
    ∀ check ∈ if repeats then latest else some own, Repeatable laws check := by
  cases repeats with
  | false => simpa using ownRepeatable
  | true => exact repeatable

end Repetition

mutual

theorem checkExpr_meets {base : TypingState} {scope : Scope} {hint : Option TypeId} (expr : Expr)
    (allows : laws.Allows expr.mentions)
    (fits : laws.Fits base scope) (hinted : ∀ type ∈ hint, laws.Seen type) :
    laws.Looks base scope (checkExpr hint expr) fun _ => laws.Seen := by
  cases expr with
  | ident name =>
    rw [Expr.mentions] at allows
    exact .get (.lift (checkIdent_meets fits (allows _ List.mem_cons_self)))
  | literal span kind text =>
    refine .lift (record_meets span ?_)
    cases kind <;> exact laws.basic_seen fits _
  | composite span type elements =>
    rw [Expr.mentions, allows_append] at allows
    refine .seq (checkLiteralType_meets type allows.1 fits hinted) fun type sees => ?_
    have hints : laws.Meets base (queryTypes fun types => types.elementHints type)
        fun _ hints => hints.Within laws.Seen :=
      queryTypes_meets fun table closed => closed.elementHints sees
    exact .seq (.lift hints) fun hints seesHints =>
      .seq (checkElements_meets 0 elements allows.2 fits seesHints) fun _ _ =>
        .lift (record_meets span sees)
  | keyValue span key value =>
    rw [Expr.mentions, allows_append] at allows
    exact .seq (checkExpr_meets key allows.1 fits (by simp)) fun _ _ =>
      .seq (checkExpr_meets value allows.2 fits hinted) fun _ sees =>
        .lift (record_meets span sees)
  | function span signature body =>
    rw [Expr.mentions, allows_append] at allows
    refine .seq (resolveSignature_meets signature allows.1 fits) fun type sees => .change ?_
    refine .bind (enterFunction_meets signature allows.1 (laws.enter fits))
      fun _ inner _ _ ⟨fitsInner, grows⟩ => ?_
    exact .seq (checkBlock_meets body allows.2 fitsInner) fun _ _ =>
      .change (.leave grows (.lift (record_meets span sees)))
  | paren span inner =>
    rw [Expr.mentions] at allows
    exact .seq (checkExpr_meets inner allows fits hinted) fun type sees =>
      .seq (.lift (denotesType_meets inner)) fun _ _ =>
        .ite (fun _ => .lift (recordType_meets span sees)) fun _ => .lift (record_meets span sees)
  | selector span operand name =>
    rw [Expr.mentions, allows_append] at allows
    have permits : laws.Permits (.plain name) := allows.2 _ List.mem_cons_self
    refine .get (.seq (.lift (packageOperand?_meets fits operand)) fun found known => ?_)
    cases found with
    | none =>
      exact .seq (checkExpr_meets operand allows.1 fits (by simp)) fun type sees =>
        .lift (checkSelection_meets fits span sees permits)
    | some entry =>
      obtain ⟨same, reaches⟩ := known entry rfl
      have permitsPackage : laws.Permits (.plain entry.1) := by
        have mentioned := allows.1
        rw [same, Expr.mentions] at mentioned
        exact mentioned _ List.mem_cons_self
      exact .step (recordUse_meets permitsPackage reaches) fun _ _ step _ =>
        .lift (checkQualified_meets (laws.fits_mono step fits) span entry.2 permits)
  | index span operand index =>
    rw [Expr.mentions, allows_append] at allows
    refine .seq (checkExpr_meets operand allows.1 fits (by simp)) fun type sees => ?_
    have keyHint : laws.Meets base (queryTypes fun types => types.mapKey? type)
        fun _ hint => ∀ key ∈ hint, laws.Seen key :=
      queryTypes_meets fun table closed key found => closed.mapKey? found sees
    have result : laws.Meets base (queryTypes fun types => types.indexResult type)
        fun _ => laws.Seen :=
      queryTypes_meets fun table closed => closed.indexResult sees
    exact .seq (.lift keyHint) fun hint hinted =>
      .seq (checkExpr_meets index allows.2 fits hinted) fun _ _ =>
        .seq (.lift result) fun _ sees => .lift (record_meets span sees)
  | slice span operand low high max =>
    simp only [Expr.mentions, allows_append] at allows
    exact .seq (checkExpr_meets operand allows.1.1.1 fits (by simp)) fun type sees =>
      .seq (checkOptional_meets low allows.1.1.2 fits) fun _ _ =>
        .seq (checkOptional_meets high allows.1.2 fits) fun _ _ =>
          .seq (checkOptional_meets max allows.2 fits) fun _ _ =>
            .seq (.lift (sliceResult_meets sees)) fun _ sees => .lift (record_meets span sees)
  | typeAssert span operand type =>
    rw [Expr.mentions, allows_append] at allows
    refine .seq (checkExpr_meets operand allows.1 fits (by simp)) fun _ _ =>
      .seq (resolveOptional_meets type allows.2 fits) fun found sees =>
        .lift (record_meets span ?_)
    cases found with
    | none => exact (laws.invalid_seen fits)
    | some type => exact sees type rfl
  | call span callee arguments spread =>
    rw [Expr.mentions, allows_append] at allows
    refine .get (.seq (.lift (builtin?_meets fits callee)) fun found known => ?_)
    cases found with
    | some entry =>
      obtain ⟨same, reaches⟩ := known entry rfl
      have permits : laws.Permits (.plain entry.1) := by
        have mentioned := allows.1
        rw [Expr.mentions_of_unparen same] at mentioned
        exact mentioned _ List.mem_cons_self
      refine .step (recordUse_meets permits reaches) fun _ _ step _ => ?_
      have fits := laws.fits_mono step fits
      exact .seq (checkExprs_meets arguments allows.2 fits (by simp)) fun types sees =>
        .seq (.lift (builtinResult_meets fits entry.1.name sees)) fun _ sees =>
          .lift (record_meets span sees)
    | none =>
      refine .seq (checkExpr_meets callee allows.1 fits (by simp)) fun type sees =>
        .seq (.lift (denotesType_meets callee)) fun _ _ => .ite (fun _ => ?_) fun _ => ?_
      · exact .seq (checkExprs_meets arguments allows.2 fits (by simpa using sees))
          fun _ _ => .lift (record_meets span sees)
      · have func : laws.Meets base (queryTypes fun types => types.func? type)
            fun _ found => ∀ func ∈ found, ∀ part ∈ func.params, laws.Seen part :=
          queryTypes_meets fun table closed func found part member =>
            closed.func? found sees part (List.mem_append_left _ member)
        refine .seq (.lift func) fun found seesParams => ?_
        cases found with
        | none =>
          exact .seq (checkExprs_meets arguments allows.2 fits (by simp)) fun _ _ =>
            .lift (record_meets span (laws.invalid_seen fits))
        | some func =>
          have hints : laws.Meets base
              (queryTypes fun types => types.argumentHints func spread arguments.length)
              fun _ hints => ∀ hint ∈ hints, ∀ type ∈ hint, laws.Seen type :=
            queryTypes_meets fun table closed =>
              closed.argumentHints (seesParams func rfl) spread arguments.length
          exact .seq (.lift hints) fun hints hinted =>
            .seq (checkHinted_meets arguments allows.2 fits hinted) fun _ _ =>
              .seq (.lift (callResult_meets sees)) fun _ sees => .lift (record_meets span sees)
  | star span operand =>
    rw [Expr.mentions] at allows
    refine .seq (checkExpr_meets operand allows fits (by simp)) fun type sees =>
      .seq (.lift (denotesType_meets operand)) fun _ _ => .ite (fun _ => ?_) fun _ => ?_
    · exact .seq (.lift (pointerTo_meets sees)) fun _ sees => .lift (recordType_meets span sees)
    · have elem : laws.Meets base (queryTypes fun types => types.pointerElem? type)
          fun _ found => ∀ elem ∈ found, laws.Seen elem :=
        queryTypes_meets fun table closed elem found => closed.pointerElem? found sees
      refine .seq (.lift elem) fun found sees => .lift (record_meets span ?_)
      cases found with
      | none => exact (laws.invalid_seen fits)
      | some elem => exact sees elem rfl
  | unary span op operand =>
    rw [Expr.mentions] at allows
    have plainUnary : laws.Looks base scope (do
        let type ← checkExpr hint operand
        record span (← queryTypes fun types => types.unaryResult op type))
        fun _ => laws.Seen := by
      refine .seq (checkExpr_meets operand allows fits hinted) fun type sees => ?_
      have result : laws.Meets base
          (queryTypes fun types => types.unaryResult op type) fun _ => laws.Seen :=
        queryTypes_meets fun table closed => closed.unaryResult op sees
      exact .seq (.lift result) fun _ sees => .lift (record_meets span sees)
    cases op with
    | addr =>
      have elem : laws.Meets base
          (queryTypes fun types => hint.bind types.pointerElem?)
          fun _ found => ∀ elem ∈ found, laws.Seen elem := by
        refine queryTypes_meets fun table closed elem found => ?_
        obtain ⟨type, rfl, found⟩ := Option.bind_eq_some_iff.mp found
        exact closed.pointerElem? found (hinted type rfl)
      exact .seq (.lift elem) fun found hinted =>
        .seq (checkExpr_meets operand allows fits hinted) fun type sees =>
          .seq (.lift (pointerTo_meets sees)) fun _ sees => .lift (record_meets span sees)
    | _ => exact plainUnary
  | binary span op left right =>
    rw [Expr.mentions, allows_append] at allows
    refine .seq (checkExpr_meets left allows.1 fits (by simp)) fun leftType seesLeft =>
      .seq (checkExpr_meets right allows.2 fits (by simp)) fun rightType seesRight => ?_
    have result : laws.Meets base
        (queryTypes fun types => types.binaryResult op leftType rightType)
        fun _ => laws.Seen :=
      queryTypes_meets fun table closed => closed.binaryResult op seesLeft seesRight
    exact .seq (.lift result) fun _ sees => .lift (record_meets span sees)
  | type type =>
    rw [Expr.mentions] at allows
    exact .seq (resolveType_meets type allows fits) fun _ sees => .lift (recordType_meets _ sees)

theorem checkOptional_meets {base : TypingState} {scope : Scope} (expr : Option Expr)
    (allows : laws.Allows (optionalMentions expr)) (fits : laws.Fits base scope) :
    laws.Looks base scope (checkOptional expr) fun _ _ => True := by
  cases expr with
  | none => exact .pure fun _ _ => trivial
  | some expr =>
    rw [optionalMentions] at allows
    exact .seq (checkExpr_meets expr allows fits (by simp)) fun _ _ => .pure fun _ _ => trivial

theorem checkExprs_meets {base : TypingState} {scope : Scope} {hint : Option TypeId}
    (exprs : List Expr) (allows : laws.Allows (exprMentions exprs))
    (fits : laws.Fits base scope) (hinted : ∀ type ∈ hint, laws.Seen type) :
    laws.Looks base scope (checkExprs hint exprs)
      fun _ types => ∀ type ∈ types, laws.Seen type := by
  cases exprs with
  | nil => exact .pure (by simp)
  | cons expr later =>
    rw [exprMentions, allows_append] at allows
    exact .seq (checkExpr_meets expr allows.1 fits hinted) fun type sees =>
      .seq (checkExprs_meets later allows.2 fits hinted) fun types seesLater =>
        .pure fun _ _ => List.forall_mem_cons.mpr ⟨sees, seesLater⟩

theorem checkHinted_meets {base : TypingState} {scope : Scope} {hints : List (Option TypeId)}
    (exprs : List Expr) (allows : laws.Allows (exprMentions exprs))
    (fits : laws.Fits base scope) (hinted : ∀ hint ∈ hints, ∀ type ∈ hint, laws.Seen type) :
    laws.Looks base scope (checkHinted hints exprs)
      fun _ types => ∀ type ∈ types, laws.Seen type := by
  cases exprs with
  | nil => exact .pure (by simp)
  | cons expr later =>
    rw [exprMentions, allows_append] at allows
    exact .seq (checkExpr_meets expr allows.1 fits (head_hinted hinted)) fun type sees =>
      .seq (checkHinted_meets later allows.2 fits (tail_hinted hinted)) fun types seesLater =>
        .pure fun _ _ => List.forall_mem_cons.mpr ⟨sees, seesLater⟩

theorem checkLiteralType_meets {base : TypingState} {scope : Scope} {hint : Option TypeId}
    (type : Option Expr) (allows : laws.Allows (optionalMentions type))
    (fits : laws.Fits base scope) (hinted : ∀ type ∈ hint, laws.Seen type) :
    laws.Looks base scope (checkLiteralType hint type) fun _ => laws.Seen := by
  cases type with
  | none =>
    refine .pure fun _ _ => ?_
    cases hint with
    | none => exact (laws.invalid_seen fits)
    | some type => exact hinted type rfl
  | some type =>
    rw [optionalMentions] at allows
    exact checkExpr_meets type allows fits (by simp)

theorem checkElements_meets {base : TypingState} {scope : Scope}
    {hints : TypeTable.ElementHints} (index : Nat) (elements : List Expr)
    (allows : laws.Allows (exprMentions elements))
    (fits : laws.Fits base scope) (hinted : hints.Within laws.Seen) :
    laws.Looks base scope (checkElements hints index elements) fun _ _ => True := by
  cases elements with
  | nil => exact .pure fun _ _ => trivial
  | cons element later =>
    rw [exprMentions, allows_append] at allows
    have others := checkElements_meets (index + 1) later allows.2 fits hinted
    have unkeyed (hint : Option TypeId) (hinted : ∀ type ∈ hint, laws.Seen type) :
        laws.Looks base scope (do
          let _ ← checkExpr hint element
          checkElements hints (index + 1) later) fun _ _ => True :=
      .seq (checkExpr_meets element allows.1 fits hinted) fun _ _ => others
    cases element with
    | keyValue span key value =>
      have allows := allows.1
      rw [Expr.mentions, allows_append] at allows
      have keyed (hint : Option TypeId) (hinted : ∀ type ∈ hint, laws.Seen type) :
          laws.Looks base scope (do
            let _ ← record span (← checkExpr hint value)
            checkElements hints (index + 1) later) fun _ _ => True :=
        .seq (checkExpr_meets value allows.2 fits hinted) fun _ sees =>
          .seq (.lift (record_meets span sees)) fun _ _ => others
      cases hints with
      | fields fields =>
        rw [checkElements]
        refine .whenever (report_meets _ _) (keyed _ fun type found => ?_)
        simp only [Option.mem_def, Option.map_eq_some_iff, Option.bind_eq_some_iff] at found
        obtain ⟨field, ⟨_, _, found⟩, rfl⟩ := found
        exact hinted field (List.mem_of_find?_eq_some found)
      | plain keyHint valueHint =>
        exact .seq (checkExpr_meets key allows.1 fits hinted.1) fun _ _ =>
          keyed valueHint hinted.2
    | _ =>
      cases hints with
      | fields fields =>
        refine unkeyed (fields[index]?.map StructField.type) fun type found => ?_
        obtain ⟨field, inFields, rfl⟩ := Option.map_eq_some_iff.mp found
        exact hinted field (List.mem_of_getElem? inFields)
      | plain keyHint valueHint => exact unkeyed valueHint hinted.2

-- Type expressions

theorem resolveType_meets {base : TypingState} {scope : Scope} (type : TypeExpr)
    (allows : laws.Allows type.mentions) (fits : laws.Fits base scope) :
    laws.Looks base scope (resolveType type) fun _ => laws.Seen := by
  cases type with
  | name span ident =>
    rw [TypeExpr.mentions] at allows
    exact .get (.lift (resolveName_meets fits (allows _ List.mem_cons_self)))
  | qualified span package name =>
    rw [TypeExpr.mentions, allows_cons] at allows
    exact .get (.lift (resolveQualified_meets fits allows.1 (allows.2 _ List.mem_cons_self)))
  | pointer span elem =>
    rw [TypeExpr.mentions] at allows
    exact .seq (resolveType_meets elem allows fits) fun _ sees => .lift (pointerTo_meets sees)
  | slice span elem | ellipsis span elem =>
    rw [TypeExpr.mentions] at allows
    exact .seq (resolveType_meets elem allows fits) fun _ sees => .lift (sliceOf_meets sees)
  | array span length elem =>
    rw [TypeExpr.mentions, allows_append] at allows
    exact .seq (checkOptional_meets length allows.1 fits) fun _ _ =>
      .seq (resolveType_meets elem allows.2 fits) fun _ sees =>
        .lift (alloc_meets (by simpa using sees) (by simp))
  | map span key value =>
    rw [TypeExpr.mentions, allows_append] at allows
    exact .seq (resolveType_meets key allows.1 fits) fun _ seesKey =>
      .seq (resolveType_meets value allows.2 fits) fun _ seesValue =>
        .lift (alloc_meets (by simpa using ⟨seesKey, seesValue⟩) (by simp))
  | chan span dir elem =>
    rw [TypeExpr.mentions] at allows
    exact .seq (resolveType_meets elem allows fits) fun _ sees =>
      .lift (alloc_meets (by simpa using sees) (by simp))
  | func span signature =>
    rw [TypeExpr.mentions] at allows
    exact resolveSignature_meets signature allows fits
  | struct span fields =>
    rw [TypeExpr.mentions] at allows
    exact .seq (resolveFields_meets fields allows fits) fun _ sees =>
      .lift (alloc_meets (by simpa using sees) (by simp))
  | interface span elements =>
    rw [TypeExpr.mentions] at allows
    exact .seq (resolveInterface_meets elements allows fits (by simp))
      fun _ sees => .lift (alloc_meets sees (by simp))

theorem resolveOptional_meets {base : TypingState} {scope : Scope} (type : Option TypeExpr)
    (allows : laws.Allows (optionalTypeMentions type)) (fits : laws.Fits base scope) :
    laws.Looks base scope (resolveOptional type) fun _ found => ∀ type ∈ found, laws.Seen type := by
  cases type with
  | none => exact .pure (by simp)
  | some type =>
    rw [optionalTypeMentions] at allows
    exact .map (resolveType_meets type allows fits) fun _ sees => by simpa using sees

theorem resolveFields_meets {base : TypingState} {scope : Scope} (fields : List Field)
    (allows : laws.Allows (fieldMentions fields)) (fits : laws.Fits base scope) :
    laws.Looks base scope (resolveFields fields)
      fun _ fields => ∀ field ∈ fields, laws.Seen field.type := by
  cases fields with
  | nil => exact .pure (by simp)
  | cons field later =>
    cases field with
    | mk names type tag span =>
      simp only [fieldMentions, allows_append] at allows
      exact .seq (resolveType_meets type allows.1.2 fits) fun _ sees => .read <|
        .seq (resolveFields_meets later allows.2 fits) fun _ seesLater => .pure fun _ _ =>
          List.forall_mem_append.mpr ⟨structFields_seen _ names type sees, seesLater⟩

theorem resolveInterface_meets {base : TypingState} {scope : Scope} {type : InterfaceType}
    (elements : List InterfaceElement)
    (allows : laws.Allows (interfaceMentions elements))
    (fits : laws.Fits base scope) (sees : ∀ part ∈ (TypeKind.interface type).parts, laws.Seen part) :
    laws.Looks base scope (resolveInterface type elements)
      fun _ type => ∀ part ∈ (TypeKind.interface type).parts, laws.Seen part := by
  cases elements with
  | nil => exact .pure fun _ _ => sees
  | cons element later =>
    cases element with
    | method name signature =>
      rw [interfaceMentions, allows_cons, allows_append] at allows
      refine .seq (resolveSignature_meets signature allows.2.1 fits) fun _ seesMethod =>
        resolveInterface_meets later allows.2.2 fits ?_
      simp only [TypeKind.parts, List.map_append, List.forall_mem_append] at sees ⊢
      exact ⟨⟨sees.1, by simpa using seesMethod⟩, sees.2⟩
    | embedded embedded =>
      rw [interfaceMentions, allows_append] at allows
      refine .seq (resolveType_meets embedded allows.1 fits) fun _ seesEmbedded =>
        resolveInterface_meets later allows.2 fits ?_
      simp only [TypeKind.parts, List.forall_mem_append] at sees ⊢
      exact ⟨sees.1, sees.2, by simpa using seesEmbedded⟩

theorem resolveParams_meets {base : TypingState} {scope : Scope} (fields : List Field)
    (allows : laws.Allows (fieldMentions fields)) (fits : laws.Fits base scope) :
    laws.Looks base scope (resolveParams fields) fun _ types => ∀ type ∈ types, laws.Seen type := by
  cases fields with
  | nil => exact .pure (by simp)
  | cons field later =>
    cases field with
    | mk names type tag span =>
      simp only [fieldMentions, allows_append] at allows
      exact .seq (resolveType_meets type allows.1.2 fits) fun _ sees =>
        .seq (resolveParams_meets later allows.2 fits) fun _ seesLater =>
          .pure fun _ _ => replicate_seen _ sees seesLater

theorem resolveSignature_meets {base : TypingState} {scope : Scope} (signature : Signature)
    (allows : laws.Allows signature.mentions) (fits : laws.Fits base scope) :
    laws.Looks base scope (resolveSignature signature) fun _ => laws.Seen := by
  cases signature with
  | mk params results span =>
    rw [Signature.mentions, allows_append] at allows
    exact .seq (resolveParams_meets params allows.1 fits) fun _ seesParams =>
      .seq (resolveParams_meets results allows.2 fits) fun _ seesResults =>
        .lift (alloc_meets (List.forall_mem_append.mpr ⟨seesParams, seesResults⟩) (by simp))

-- Functions

theorem bindFields_meets {base : TypingState} (kind : SymbolKind) {scope : Scope}
    (fields : List Field) (allows : laws.Allows (fieldMentions fields))
    (fits : laws.Fits base scope) :
    laws.Moves base scope (bindFields kind fields) fun state types next =>
      (laws.Fits state next ∧ scope.Grows next) ∧ ∀ type ∈ types, laws.Seen type := by
  cases fields with
  | nil => exact .stop fun _ reached => ⟨⟨laws.fits_mono reached fits, .refl scope⟩, by simp⟩
  | cons field later =>
    cases field with
    | mk names type tag span =>
      simp only [fieldMentions, allows_append] at allows
      refine .seq (resolveType_meets type allows.1.2 fits) fun resolved sees => ?_
      refine .bind (declareLocals_meets allows.1.1 sees kind fits) fun _ inner _ _ follows => ?_
      refine .bind (bindFields_meets kind later allows.2 (laws.fits follows fits))
        fun _ bound _ _ ⟨⟨fitsBound, grows⟩, seesLater⟩ => ?_
      exact .stop fun _ reached => ⟨⟨laws.fits_mono reached fitsBound,
        (laws.grows follows).trans grows⟩, replicate_seen _ sees seesLater⟩

theorem enterFunction_meets {base : TypingState} {scope : Scope} (signature : Signature)
    (allows : laws.Allows signature.mentions) (fits : laws.Fits base scope) :
    laws.Moves base scope (enterFunction signature) fun state _ next =>
      laws.Fits state next ∧ scope.Grows next.exit := by
  cases signature with
  | mk params results span =>
    rw [Signature.mentions, allows_append] at allows
    refine .bind (bindFields_meets .param params allows.1 fits)
      fun _ inner _ _ ⟨⟨fitsInner, grows⟩, _⟩ => ?_
    refine .bind (bindFields_meets .var results allows.2 fitsInner)
      fun _ bound _ _ ⟨⟨fitsBound, growsBound⟩, sees⟩ => ?_
    exact fun state reached _ => ⟨laws.refl state,
      laws.call (laws.fits_mono reached fitsBound) sees, grows.trans growsBound⟩

-- Statements

theorem checkBlock_meets {base : TypingState} {scope : Scope} (block : Block)
    (allows : laws.Allows block.mentions) (fits : laws.Fits base scope) :
    laws.Looks base scope (checkBlock block) fun _ _ => True := by
  cases block with
  | mk stmts span =>
    rw [Block.mentions] at allows
    exact .change (.bind (checkStmts_meets stmts allows (.enter fits)) fun _ _ _ _ follows =>
      .left (laws.grows follows) fun _ _ => ⟨rfl, trivial⟩)

theorem checkStmts_meets {base : TypingState} {scope : Scope} (stmts : List Stmt)
    (allows : laws.Allows (stmtMentions stmts)) (hosts : laws.Hosts base scope) :
    laws.Moves base scope (checkStmts stmts) fun state _ next =>
      laws.Follows (blockAdds stmts) base scope state next := by
  cases stmts with
  | nil => exact .stop fun _ reached => laws.stay hosts.fits reached
  | cons stmt later =>
    rw [stmtMentions, allows_append] at allows
    exact .bind (checkStmt_meets stmt allows.1 hosts) fun _ _ _ step first =>
      (checkStmts_meets later allows.2 (hosts.follow first)).weaken fun _ _ _ reached follows =>
        laws.behind step reached first follows

theorem checkStmt_meets {base : TypingState} {scope : Scope} (stmt : Stmt)
    (allows : laws.Allows stmt.mentions) (hosts : laws.Hosts base scope) :
    laws.Moves base scope (checkStmt stmt) fun state _ next =>
      laws.Follows stmt.adds base scope state next := by
  have fits := hosts.fits
  -- What is done in blocks of the statement's own ends when the last one is left.
  have left {inner : Scope} {later : TypingState} (step : laws.Step base later)
      (grows : scope.enter.Grows inner) :
      laws.Moves later inner popBlock fun state _ next =>
        laws.Follows (fun _ => []) base scope state next :=
    .left grows fun _ reached => laws.stay fits (laws.trans step reached)
  cases stmt with
  | expr span expr | defer span expr | go span expr | incDec span expr increment =>
    rw [Stmt.mentions] at allows
    exact laws.unchanged fits (.seq (checkExpr_meets expr allows fits (by simp)) fun _ _ =>
      .pure fun _ _ => trivial)
  | assign span targets op values =>
    rw [Stmt.mentions, allows_append] at allows
    have assigned : laws.Looks base scope (do
        let hints := bindingHints targets.length values (← checkTargets targets)
        let _ ← checkHinted hints values) fun _ _ => True :=
      .seq (checkTargets_meets targets allows.1 fits) fun _ sees =>
        .seq (checkHinted_meets values allows.2 fits (bindingHints_seen _ _ sees))
          fun _ _ => .pure fun _ _ => trivial
    cases op with
    | define =>
      refine .seq (checkHinted_meets values allows.2 fits
        (bindingHints_seen _ _ (by simp))) fun _ sees => ?_
      exact .seq (.lift (unpack_meets fits _ values sees)) fun _ sees =>
        (defineTargets_meets targets allows.1 sees fits).weaken fun _ _ _ _ result => result.1
    | _ => exact laws.unchanged fits assigned
  | send span channel value =>
    rw [Stmt.mentions, allows_append] at allows
    refine laws.unchanged fits (.seq (checkExpr_meets channel allows.1 fits (by simp))
      fun type sees => ?_)
    have elem : laws.Meets base (queryTypes fun types => types.chanElem? type)
        fun _ found => ∀ elem ∈ found, laws.Seen elem :=
      queryTypes_meets fun table closed elem found => closed.chanElem? found sees
    exact .seq (.lift elem) fun _ hinted =>
      .seq (checkExpr_meets value allows.2 fits hinted) fun _ _ => .pure fun _ _ => trivial
  | decl span decl =>
    rw [Stmt.mentions] at allows
    cases decl with
    | var specs =>
      rw [Decl.mentions] at allows
      exact checkVars_meets specs allows hosts
    | const specs =>
      rw [Decl.mentions] at allows
      exact checkConsts_meets specs allows hosts (by simp)
    | type specs =>
      rw [Decl.mentions] at allows
      exact checkTypes_meets specs allows fits
  | returns span results =>
    rw [Stmt.mentions] at allows
    refine laws.unchanged fits (.get (.seq (checkHinted_meets results allows fits ?_) fun _ _ =>
      .pure fun _ _ => trivial))
    split
    · simpa using laws.results fits
    · simp
  | conditional span init condition body alternative =>
    simp only [Stmt.mentions, allows_append] at allows
    refine .change (.bind (checkOptionalStmt_meets init allows.1.1.1 (.enter fits))
      fun _ inner _ step ⟨hostsInner, grows⟩ => ?_)
    refine .seq (checkExpr_meets condition allows.1.1.2 hostsInner.fits (by simp)) fun _ _ => ?_
    refine .seq (checkBlock_meets body allows.1.2 hostsInner.fits) fun _ _ => ?_
    exact .bind (checkOptionalStmt_meets alternative allows.2 hostsInner)
      fun _ _ _ next ⟨_, growsLast⟩ => left (laws.trans step next) (grows.trans growsLast)
  | loop span init condition post body =>
    simp only [Stmt.mentions, allows_append] at allows
    refine .change (.bind (checkOptionalStmt_meets init allows.1.1.1 (.enter fits))
      fun _ inner _ step ⟨hostsInner, grows⟩ => ?_)
    refine .seq (checkOptional_meets condition allows.1.1.2 hostsInner.fits) fun _ _ => ?_
    refine .bind (checkOptionalStmt_meets post allows.1.2 hostsInner)
      fun _ last _ next ⟨hostsLast, growsLast⟩ => ?_
    exact .seq (checkBlock_meets body allows.2 hostsLast.fits) fun _ _ =>
      left (laws.trans step next) (grows.trans growsLast)
  | range span key value define expr body =>
    simp only [Stmt.mentions, allows_append] at allows
    refine .seq (checkExpr_meets expr allows.1.2 fits (by simp)) fun type sees => ?_
    have bound : laws.Meets base (queryTypes fun types => types.rangeTypes type)
        fun _ bound => laws.Seen bound.1 ∧ laws.Seen bound.2 :=
      queryTypes_meets fun table closed => closed.rangeTypes sees
    refine .seq (.lift bound) fun bound seesBound => .change ?_
    refine .bind (checkRangeTarget_meets define key allows.1.1.1 (laws.enter fits) seesBound.1)
      fun _ inner _ step ⟨fitsInner, grows⟩ => ?_
    refine .bind (checkRangeTarget_meets define value allows.1.1.2 fitsInner seesBound.2)
      fun _ last _ next ⟨fitsLast, growsLast⟩ => ?_
    exact .seq (checkBlock_meets body allows.2 fitsLast) fun _ _ =>
      left (laws.trans step next) (grows.trans growsLast)
  | switch span init tag clauses =>
    simp only [Stmt.mentions, allows_append] at allows
    refine .change (.bind (checkOptionalStmt_meets init allows.1.1 (.enter fits))
      fun _ inner _ step ⟨hostsInner, grows⟩ => ?_)
    exact .seq (checkTag_meets tag allows.1.2 hostsInner.fits) fun _ sees =>
      .seq (checkClauses_meets clauses allows.2 hostsInner.fits sees) fun _ _ => left step grows
  | typeSwitch span init binding guard clauses =>
    simp only [Stmt.mentions, allows_append] at allows
    refine .change (.bind (checkOptionalStmt_meets init allows.1.1.1 (.enter fits))
      fun _ inner later step ⟨hostsInner, grows⟩ => ?_)
    have fitsInner := hostsInner.fits
    have clausesMeet (subject : TypeId) (sees : laws.Seen subject) :
        laws.Moves later inner (do
          let _ ← record guard.span subject
          checkTypeClauses binding subject clauses
          popBlock) fun state _ next => laws.Follows (fun _ => []) base scope state next :=
      .seq (.lift (record_meets _ sees)) fun _ _ =>
        .seq (checkTypeClauses_meets clauses allows.2 fitsInner allows.1.1.2 sees) fun _ _ =>
          left step grows
    refine .seq (checkSubject_meets guard allows.1.2 fitsInner) fun found sees => ?_
    cases found with
    | some subject => exact clausesMeet subject (sees subject rfl)
    | none =>
      exact .seq (checkExpr_meets guard allows.1.2 fitsInner (by simp)) fun subject sees =>
        clausesMeet subject sees
  | block body =>
    rw [Stmt.mentions] at allows
    exact laws.unchanged fits (checkBlock_meets body allows fits)
  | labeled span label stmt =>
    rw [Stmt.mentions] at allows
    exact checkStmt_meets stmt allows hosts
  | branch span kind label | empty span => exact laws.unchanged fits (.pure fun _ _ => trivial)

theorem checkOptionalStmt_meets {base : TypingState} {scope : Scope} (stmt : Option Stmt)
    (allows : laws.Allows (optionalStmtMentions stmt)) (hosts : laws.Hosts base scope) :
    laws.Moves base scope (checkOptionalStmt stmt) fun state _ next =>
      laws.Hosts state next ∧ scope.Grows next := by
  cases stmt with
  | none =>
    exact .stop fun _ reached =>
      ⟨hosts.grow (laws.fits_mono reached hosts.fits) (.refl scope), .refl scope⟩
  | some stmt =>
    rw [optionalStmtMentions] at allows
    exact (checkStmt_meets stmt allows hosts).weaken fun _ _ _ _ follows =>
      ⟨hosts.follow follows, laws.grows follows⟩

theorem checkTargets_meets {base : TypingState} {scope : Scope} (targets : List Expr)
    (allows : laws.Allows (exprMentions targets)) (fits : laws.Fits base scope) :
    laws.Looks base scope (checkTargets targets)
      fun _ hints => ∀ hint ∈ hints, ∀ type ∈ hint, laws.Seen type := by
  cases targets with
  | nil => exact .pure (by simp)
  | cons target later =>
    rw [exprMentions, allows_append] at allows
    have others (hint : Option TypeId) (sees : ∀ type ∈ hint, laws.Seen type) :
        laws.Looks base scope (do return hint :: (← checkTargets later))
          fun _ hints => ∀ hint ∈ hints, ∀ type ∈ hint, laws.Seen type :=
      .seq (checkTargets_meets later allows.2 fits) fun _ seesLater => .pure fun _ _ =>
        List.forall_mem_cons.mpr ⟨sees, seesLater⟩
    have assigned : laws.Looks base scope (some <$> checkExpr none target)
        fun _ hint => ∀ type ∈ hint, laws.Seen type :=
      .map (checkExpr_meets target allows.1 fits (by simp)) fun _ sees => by simpa using sees
    exact .ite (fun _ => others none (by simp)) fun _ => .seq assigned others

theorem checkRangeTarget_meets {base : TypingState} {scope : Scope} (define : Bool) {type : TypeId}
    (target : Option Expr) (allows : laws.Allows (optionalMentions target))
    (fits : laws.Fits base scope) (sees : laws.Seen type) :
    laws.Moves base scope (checkRangeTarget define type target) fun state _ next =>
      laws.Fits state next ∧ scope.Grows next := by
  have unchanged : laws.Moves base scope (Pure.pure ()) fun state _ next =>
      laws.Fits state next ∧ scope.Grows next :=
    .stop fun _ reached => ⟨laws.fits_mono reached fits, .refl scope⟩
  cases target with
  | none => exact unchanged
  | some target =>
    rw [optionalMentions] at allows
    exact .ite (fun _ => bindRangeTarget_meets fits allows sees) fun _ =>
      .ite (fun _ => unchanged) fun _ =>
        .seq (checkExpr_meets target allows fits (by simp)) fun _ _ => unchanged

theorem checkTag_meets {base : TypingState} {scope : Scope} (tag : Option Expr)
    (allows : laws.Allows (optionalMentions tag)) (fits : laws.Fits base scope) :
    laws.Looks base scope (checkTag tag) fun _ hint => ∀ type ∈ hint, laws.Seen type := by
  cases tag with
  | none => exact .pure (by simp)
  | some tag =>
    rw [optionalMentions] at allows
    exact .map (checkExpr_meets tag allows fits (by simp)) fun _ sees => by simpa using sees

theorem checkClauses_meets {base : TypingState} {scope : Scope} {tag : Option TypeId}
    (clauses : List CaseClause) (allows : laws.Allows (clauseMentions clauses))
    (fits : laws.Fits base scope) (sees : ∀ type ∈ tag, laws.Seen type) :
    laws.Looks base scope (checkClauses tag clauses) fun _ _ => True := by
  cases clauses with
  | nil => exact .pure fun _ _ => trivial
  | cons clause later =>
    cases clause with
    | mk exprs body span =>
      simp only [clauseMentions, allows_append] at allows
      exact .seq (checkExprs_meets exprs allows.1.1 fits sees) fun _ _ => .change
        (.bind (checkStmts_meets body allows.1.2 (.enter fits)) fun _ _ _ step follows =>
          .leave (laws.grows follows) ((checkClauses_meets later allows.2 fits sees).mono step))

theorem checkSubject_meets {base : TypingState} {scope : Scope} (guard : Expr)
    (allows : laws.Allows guard.mentions) (fits : laws.Fits base scope) :
    laws.Looks base scope (checkSubject guard) fun _ found => ∀ type ∈ found, laws.Seen type := by
  cases guard with
  | paren span inner =>
    rw [Expr.mentions] at allows
    exact checkSubject_meets inner allows fits
  | typeAssert span operand type =>
    rw [Expr.mentions, allows_append] at allows
    cases type with
    | none =>
      exact .map (checkExpr_meets operand allows.1 fits (by simp)) fun _ sees => by simpa using sees
    | some type => exact .pure (by simp)
  | _ => exact .pure (by simp)

theorem checkTypeClauses_meets {base : TypingState} {scope : Scope} {binding : Option Ident}
    {subject : TypeId} (clauses : List CaseClause)
    (allows : laws.Allows (clauseMentions clauses)) (fits : laws.Fits base scope)
    (allowsBinding : laws.Allows (binding.toList.map .plain))
    (sees : laws.Seen subject) :
    laws.Looks base scope (checkTypeClauses binding subject clauses) fun _ _ => True := by
  cases clauses with
  | nil => exact .pure fun _ _ => trivial
  | cons clause later =>
    cases clause with
    | mk exprs body span =>
      simp only [clauseMentions, allows_append] at allows
      refine .seq (checkExprs_meets exprs allows.1.1 fits (by simp)) fun _ seesCases => .change ?_
      refine .bind (bindSubject_meets allowsBinding sees seesCases (laws.enter fits))
        fun _ bound _ step ⟨fitsBound, grows⟩ => ?_
      refine .bind (checkStmts_meets body allows.1.2 ((Laws.Hosts.enter fits).grow fitsBound grows))
        fun _ _ _ next follows => .leave (grows.trans (laws.grows follows)) ?_
      exact (checkTypeClauses_meets later allows.2 fits allowsBinding sees).mono
        (laws.trans step next)

-- Declarations

theorem checkVars_meets {base : TypingState} {scope : Scope} (specs : List ValueSpec)
    (allows : laws.Allows (valueSpecMentions specs)) (hosts : laws.Hosts base scope) :
    laws.Moves base scope (checkVars specs) fun state _ next =>
      laws.Follows (fun _ => localNames (specs.flatMap ValueSpec.names)) base scope state next := by
  have fits := hosts.fits
  cases specs with
  | nil => exact .stop fun _ reached => laws.stay fits reached
  | cons spec later =>
    cases spec with
    | mk names type values position span =>
      simp only [valueSpecMentions, allows_append] at allows
      rw [List.flatMap_cons, ← thenAdds_localNames]
      refine .seq (resolveOptional_meets type allows.1.1.2 fits) fun declared sees => ?_
      refine .seq (checkHinted_meets values allows.1.2 fits
        (bindingHints_seen _ _ (replicate_hinted _ sees))) fun _ seesTypes => ?_
      refine .seq (.lift (unpack_meets fits _ values seesTypes)) fun _ seesTypes => ?_
      exact .bind (bindNames_meets .var sees names allows.1.1.1 seesTypes hosts)
        fun _ _ _ step bound => (checkVars_meets later allows.2 (hosts.follow bound.1)).weaken
          fun _ _ _ reached follows => laws.behind step reached bound.1 follows

theorem checkConsts_meets {base : TypingState} {scope : Scope}
    {latest : Option (Nat → Checker (Option TypeId × List TypeId))}
    (specs : List ValueSpec) (allows : laws.Allows (valueSpecMentions specs))
    (hosts : laws.Hosts base scope) (repeatable : ∀ check ∈ latest, Repeatable laws check) :
    laws.Moves base scope (checkConsts latest specs) fun state _ next =>
      laws.Follows (fun _ => localNames (specs.flatMap ValueSpec.names)) base scope state next := by
  cases specs with
  | nil => exact laws.unchanged hosts.fits (.lift (iota_meets none))
  | cons spec later =>
    cases spec with
    | mk names type values position span =>
      simp only [valueSpecMentions, allows_append] at allows
      rw [List.flatMap_cons, ← thenAdds_localNames]
      refine .seq (.lift (iota_meets (some position))) fun _ _ => ?_
      have own : Repeatable laws fun count => do
          let declared ← resolveOptional type
          let hints := bindingHints count values (List.replicate count declared)
          let types ← unpack count values (← checkHinted hints values)
          return (declared, types) := by
        intro base scope count fits
        refine .seq (resolveOptional_meets type allows.1.1.2 fits) fun declared sees => ?_
        refine .seq (checkHinted_meets values allows.1.2 fits
          (bindingHints_seen _ _ (replicate_hinted _ sees))) fun _ seesTypes => ?_
        exact .seq (.lift (unpack_meets fits _ values seesTypes)) fun _ seesTypes =>
          .pure fun _ _ => ⟨sees, seesTypes⟩
      refine .seq (repeatable_check own repeatable _ _ _ _ hosts.fits) fun result sees => ?_
      exact .bind (bindNames_meets .const sees.1 names allows.1.1.1 sees.2 hosts)
        fun _ _ _ step bound => (checkConsts_meets later allows.2 (hosts.follow bound.1)
          (repeatable_latest own repeatable _)).weaken fun _ _ _ reached follows =>
            laws.behind step reached bound.1 follows

theorem checkTypes_meets {base : TypingState} {scope : Scope} (specs : List TypeSpec)
    (allows : laws.Allows (typeSpecMentions specs)) (fits : laws.Fits base scope) :
    laws.Moves base scope (checkTypes specs) fun state _ next =>
      laws.Follows (fun _ => (specs.map TypeSpec.name).reverse) base scope state next := by
  cases specs with
  | nil => exact .stop fun _ reached => laws.stay fits reached
  | cons spec later =>
    cases spec with
    | mk name isAlias type span =>
      rw [typeSpecMentions, allows_cons, allows_append] at allows
      refine .bind (laws.declareType allows.1 fits fun _ _ fits =>
        resolveType_meets type allows.2.1 fits) fun _ bound _ step first => ?_
      refine (checkTypes_meets later allows.2.2 (laws.fits first fits)).weaken
        fun _ _ _ reached follows =>
          laws.follows_congr (laws.behind step reached first follows) fun _ => ?_
      simp [thenAdds, TypeSpec.name]

end

end Typing
end Unclosed
