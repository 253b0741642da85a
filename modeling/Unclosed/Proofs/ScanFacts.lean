import Mathlib.Data.List.Flatten
import Mathlib.Data.List.Forall2
import Unclosed.Analysis.Calls
import Unclosed.Analysis.Run

/-!
What a scan owes to the facts.  The facts are asked only whether a call takes a
tracked value over.  So with more disposers known a value is resolved no later,
and the findings are those from before without some of the leaks.
-/

namespace Unclosed

variable (program : Program) (settings : AnalysisSettings)

def FuncDecl.callees (func : FuncDecl) : List Expr :=
  match func.body with
  | none => []
  | some body => body.callees

namespace Scan

/-! ### Resolution -/

/-- Whatever resolves the first value for the first scan resolves the second value
for the second, as far as the listed calls are concerned. -/
structure Covers (first second : Scan) (value other : Tracked) (callees : List Expr) :
    Prop where
  selects : ∀ span, first.view.selectsMethod span = second.view.selectsMethod span
  mentions : ∀ expr, first.mentions value expr = true → second.mentions other expr = true
  direct : ∀ callee,
    first.closesDirectly value callee = true → second.closesDirectly other callee = true
  handed : ∀ callee ∈ callees, ∀ arguments,
    first.handsOver value callee arguments = true →
      second.handsOver other callee arguments = true

namespace Covers

variable {first second : Scan} {value other : Tracked}

theorem mono {callees fewer : List Expr} (covers : Covers first second value other callees)
    (among : ∀ callee ∈ fewer, callee ∈ callees) : Covers first second value other fewer :=
  { covers with handed := fun callee member => covers.handed callee (among callee member) }

theorem left {before after : List Expr}
    (covers : Covers first second value other (before ++ after)) :
    Covers first second value other before :=
  covers.mono fun _ member => List.mem_append_left after member

theorem right {before after : List Expr}
    (covers : Covers first second value other (before ++ after)) :
    Covers first second value other after :=
  covers.mono fun _ member => List.mem_append_right before member

theorem tail {callee : Expr} {callees : List Expr}
    (covers : Covers first second value other (callee :: callees)) :
    Covers first second value other callees :=
  covers.mono fun _ member => List.mem_cons_of_mem callee member

end Covers

section Resolution

variable {first second : Scan} {value other : Tracked} {callees : List Expr}

mutual

theorem escapes_of_covers (covers : Covers first second value other callees) (expr : Expr)
    (found : first.escapes value expr = true) : second.escapes other expr = true := by
  cases expr with
  | composite span type elements =>
    simp only [escapes, Bool.or_eq_true] at found ⊢
    exact found.imp (covers.mentions _) (anyEscapes_of_covers covers elements)
  | keyValue span key inner =>
    simp only [escapes, Bool.or_eq_true] at found ⊢
    exact found.imp (covers.mentions _) (escapes_of_covers covers inner)
  | paren span operand | unary span op operand =>
    simp only [escapes, Bool.or_eq_true] at found ⊢
    exact found.imp (covers.mentions _) (escapes_of_covers covers operand)
  | call span callee arguments spread =>
    simp only [escapes, Bool.or_eq_true] at found ⊢
    rcases found with (whole | receiver) | inArguments
    · exact .inl (.inl (covers.mentions _ whole))
    · exact .inl (.inr (receiverEscapes_of_covers covers callee receiver))
    · exact .inr (anyEscapes_of_covers covers arguments inArguments)
  | _ => exact covers.mentions _ found

theorem anyEscapes_of_covers (covers : Covers first second value other callees)
    (exprs : List Expr) (found : first.anyEscapes value exprs = true) :
    second.anyEscapes other exprs = true := by
  cases exprs with
  | nil => cases found
  | cons expr later =>
    simp only [anyEscapes, Bool.or_eq_true] at found ⊢
    exact found.imp (escapes_of_covers covers expr) (anyEscapes_of_covers covers later)

theorem receiverEscapes_of_covers (covers : Covers first second value other callees)
    (expr : Expr) (found : first.receiverEscapes value expr = true) :
    second.receiverEscapes other expr = true := by
  cases expr with
  | paren span inner => exact receiverEscapes_of_covers covers inner found
  | selector span operand name =>
    simp only [receiverEscapes, Bool.and_eq_true, ← covers.selects span] at found ⊢
    exact ⟨found.1, escapes_of_covers covers operand found.2⟩
  | _ => cases found

end

mutual

theorem disposes_of_covers (expr : Expr)
    (covers : Covers first second value other expr.callees)
    (found : first.disposes value expr = true) : second.disposes other expr = true := by
  cases expr with
  | call span callee arguments spread =>
    change Covers first second value other
      (callee :: (callee.callees ++ calleesOfExprs arguments)) at covers
    simp only [disposes, Bool.or_eq_true] at found ⊢
    rcases found with (((direct | handed) | literal) | inCallee) | inArguments
    · exact .inl (.inl (.inl (.inl (covers.direct callee direct))))
    · exact .inl (.inl (.inl (.inr (covers.handed callee List.mem_cons_self arguments handed))))
    · exact .inl (.inl (.inr (literalResolves_of_covers callee covers.tail.left literal)))
    · exact .inl (.inr (disposes_of_covers callee covers.tail.left inCallee))
    · exact .inr (anyDisposes_of_covers arguments covers.tail.right inArguments)
  | paren span operand | unary span op operand => exact disposes_of_covers operand covers found
  | binary span op left right =>
    change Covers first second value other (left.callees ++ right.callees) at covers
    simp only [disposes, Bool.or_eq_true] at found ⊢
    exact found.imp (disposes_of_covers left covers.left) (disposes_of_covers right covers.right)
  | _ => cases found

theorem anyDisposes_of_covers (exprs : List Expr)
    (covers : Covers first second value other (calleesOfExprs exprs))
    (found : first.anyDisposes value exprs = true) : second.anyDisposes other exprs = true := by
  cases exprs with
  | nil => cases found
  | cons expr later =>
    change Covers first second value other (expr.callees ++ calleesOfExprs later) at covers
    simp only [anyDisposes, Bool.or_eq_true] at found ⊢
    exact found.imp (disposes_of_covers expr covers.left) (anyDisposes_of_covers later covers.right)

theorem literalResolves_of_covers (expr : Expr)
    (covers : Covers first second value other expr.callees)
    (found : first.literalResolves value expr = true) :
    second.literalResolves other expr = true := by
  cases expr with
  | paren span inner => exact literalResolves_of_covers inner covers found
  | function span signature body => exact blockResolves_of_covers false body covers found
  | _ => cases found

theorem blockResolves_of_covers (nested : Bool) (block : Block)
    (covers : Covers first second value other block.callees)
    (found : first.blockResolves value nested block = true) :
    second.blockResolves other nested block = true := by
  cases block with
  | mk stmts span => exact anyResolves_of_covers nested stmts covers found

theorem anyResolves_of_covers (nested : Bool) (stmts : List Stmt)
    (covers : Covers first second value other (calleesOfStmts stmts))
    (found : first.anyResolves value nested stmts = true) :
    second.anyResolves other nested stmts = true := by
  cases stmts with
  | nil => cases found
  | cons stmt later =>
    change Covers first second value other (stmt.callees ++ calleesOfStmts later) at covers
    simp only [anyResolves, Bool.or_eq_true] at found ⊢
    exact found.imp (resolvesAt_of_covers nested stmt covers.left)
      (anyResolves_of_covers nested later covers.right)

theorem resolvesAt_of_covers (nested : Bool) (stmt : Stmt)
    (covers : Covers first second value other stmt.callees)
    (found : first.resolvesAt value nested stmt = true) :
    second.resolvesAt other nested stmt = true := by
  cases stmt with
  | returns span results =>
    simp only [resolvesAt, Bool.or_eq_true] at found ⊢
    exact found.imp (anyEscapes_of_covers covers results) (anyDisposes_of_covers results covers)
  | defer span expr | go span expr | expr span expr => exact disposes_of_covers expr covers found
  | assign span targets op values =>
    change Covers first second value other
      (calleesOfExprs targets ++ calleesOfExprs values) at covers
    exact anyDisposes_of_covers values covers.right found
  | decl span decl =>
    cases decl with
    | var specs => exact specsDispose_of_covers specs covers found
    | _ => cases found
  | conditional span init condition body alternative =>
    change Covers first second value other
      (calleesOfOptionalStmt init ++ condition.callees ++ body.callees ++
        calleesOfOptionalStmt alternative) at covers
    simp only [resolvesAt, Bool.and_eq_true, Bool.or_eq_true] at found ⊢
    exact ⟨found.1, found.2.imp (optionalResolves_of_covers init covers.left.left.left)
      (blockResolves_of_covers true body covers.left.right)⟩
  | _ => cases found

theorem optionalResolves_of_covers (stmt : Option Stmt)
    (covers : Covers first second value other (calleesOfOptionalStmt stmt))
    (found : first.optionalResolves value stmt = true) :
    second.optionalResolves other stmt = true := by
  cases stmt with
  | none => cases found
  | some stmt => exact resolvesAt_of_covers true stmt covers found

theorem specsDispose_of_covers (specs : List ValueSpec)
    (covers : Covers first second value other (calleesOfSpecs specs))
    (found : first.specsDispose value specs = true) :
    second.specsDispose other specs = true := by
  cases specs with
  | nil => cases found
  | cons spec later =>
    cases spec with
    | mk names type values position span =>
      change Covers first second value other
        (calleesOfExprs values ++ calleesOfSpecs later) at covers
      simp only [specsDispose, Bool.or_eq_true] at found ⊢
      exact found.imp (anyDisposes_of_covers values covers.left)
        (specsDispose_of_covers later covers.right)

end

end Resolution

/-! ### Known disposers -/

def knowing (scan : Scan) (known : FuncKey → Bool) : Scan := { scan with isDisposer := known }

/-- The second is the first value, and it is resolved if the first one is. -/
structure Advances (value other : Tracked) : Prop where
  same : other = { value with resolved := other.resolved }
  resolved : value.resolved = true → other.resolved = true

theorem Advances.refl (value : Tracked) : Advances value value := ⟨rfl, id⟩

/-- Among the functions that the listed calls run, every disposer of the scan is
one of the given functions. -/
def Keeps (scan : Scan) (known : FuncKey → Bool) (callees : List Expr) : Prop :=
  ∀ callee ∈ callees, ∀ key, scan.view.calleeKey? callee = some key →
    scan.isDisposer key = true → known key = true

section Knowing

variable (scan : Scan) (known : FuncKey → Bool)

theorem bindAll_knowing (targets : List (Option Ident)) (results : List (Option Disposal)) :
    (scan.knowing known).bindAll targets results = scan.bindAll targets results := by
  fun_induction bindAll scan targets results with
  | case1 ident targets disposal results ih =>
    rw [bindAll, ih]
    rfl
  | case2 target targets result results notBoth ih =>
    rw [bindAll, ih]
    exact notBoth
  | case3 targets results notBoth noTwo =>
    rw [bindAll]
    · exact notBoth
    · exact noTwo

theorem track_knowing (targets : List (Option Ident)) (values : List Expr) :
    (scan.knowing known).track targets values = scan.track targets values := by
  unfold track
  simp only [bindAll_knowing]
  rfl

theorem boundBy_knowing (stmt : Stmt) : (scan.knowing known).boundBy stmt = scan.boundBy stmt := by
  unfold boundBy
  simp only [track_knowing]

theorem leaks_sublist (few many : List Tracked) (aligned : List.Forall₂ Advances few many) :
    ((many.filter fun value => !value.resolved).map (scan.knowing known).leak).Sublist
      ((few.filter fun value => !value.resolved).map scan.leak) := by
  induction aligned with
  | nil => exact .slnil
  | @cons value other few many advances _ ih =>
    rw [List.filter_cons, List.filter_cons]
    cases before : value.resolved with
    | true =>
      rw [advances.resolved before]
      exact ih
    | false =>
      cases after : other.resolved with
      | true => exact ih.cons _
      | false =>
        have leaked : (scan.knowing known).leak other = scan.leak value := by
          rw [advances.same]
          rfl
        change ((scan.knowing known).leak other :: _).Sublist (scan.leak value :: _)
        rw [leaked]
        exact ih.cons_cons _

theorem covers_knowing (value : Tracked) (resolved : Bool) (callees : List Expr)
    (keeps : scan.Keeps known callees) :
    Covers scan (scan.knowing known) value { value with resolved := resolved } callees where
  selects _ := rfl
  mentions _ found := found
  direct _ found := found
  handed callee member arguments found := by
    simp only [handsOver, Bool.and_eq_true] at found ⊢
    refine ⟨?_, found.2⟩
    have knownBefore := found.1
    unfold isKnownDisposer at knownBefore ⊢
    dsimp only [knowing]
    cases target : scan.view.calleeKey? callee with
    | none =>
      rw [target] at knownBefore
      cases knownBefore
    | some key =>
      rw [target] at knownBefore
      exact keeps callee member key target knownBefore

theorem markResolved_advances (stmt : Stmt) (keeps : scan.Keeps known stmt.callees)
    (value other : Tracked) (advances : Advances value other) :
    Advances (scan.markResolved stmt value) ((scan.knowing known).markResolved stmt other) := by
  obtain ⟨same, resolved⟩ := advances
  refine ⟨?_, ?_⟩
  · rw [same]
    rfl
  · intro found
    simp only [markResolved, Bool.or_eq_true] at found ⊢
    refine found.imp resolved ?_
    intro resolves
    rw [same]
    exact resolvesAt_of_covers false stmt
      (covers_knowing scan known value other.resolved stmt.callees keeps) resolves

/-- With more disposers known the findings of a body are among those from before,
in the same order. -/
theorem stmts_sublist (body : List Stmt) (keeps : scan.Keeps known (calleesOfStmts body))
    (few many : List Tracked) (aligned : List.Forall₂ Advances few many) :
    ((scan.knowing known).stmts body many).2.Sublist (scan.stmts body few).2 := by
  induction body generalizing few many with
  | nil => exact leaks_sublist scan known few many aligned
  | cons stmt later ih =>
    obtain ⟨keepsHere, keepsLater⟩ := List.forall_mem_append.mp keeps
    -- A result dropped before anything is tracked ends both scans or none.
    have sameEmpty : many.isEmpty = few.isEmpty := by
      cases aligned with
      | nil => rfl
      | cons _ _ => rfl
    have sameDropped : (scan.knowing known).dropped? stmt = scan.dropped? stmt := rfl
    have sameLater : (scan.knowing known).droppedLater stmt = scan.droppedLater stmt := rfl
    rw [stmts, stmts, sameEmpty, sameDropped, sameLater, boundBy_knowing]
    cases if few.isEmpty then scan.dropped? stmt else none with
    | some dropped => exact .refl _
    | none =>
      refine List.Sublist.append (.refl _) (ih keepsLater _ _ ?_)
      have marked : List.Forall₂ Advances (few.map (scan.markResolved stmt))
          (many.map ((scan.knowing known).markResolved stmt)) := by
        rw [List.forall₂_map_left_iff, List.forall₂_map_right_iff]
        exact aligned.imp (markResolved_advances scan known stmt keepsHere)
      exact List.rel_append marked (List.forall₂_same.mpr fun value _ => .refl value)

theorem function_sublist (func : FuncDecl) (keeps : scan.Keeps known func.callees) :
    ((scan.knowing known).function func).2.Sublist (scan.function func).2 := by
  unfold function
  unfold FuncDecl.callees at keeps
  cases body : func.body with
  | none => exact .refl _
  | some block =>
    rw [body] at keeps
    cases block with
    | mk stmts span => exact stmts_sublist scan known stmts keeps [] [] .nil

end Knowing

end Scan

namespace Program

def calledKeys (program : Program) (package : Package) : List FuncKey :=
  package.files.flatMap fun file => file.file.functions.flatMap fun func =>
    func.callees.filterMap (FileView.calleeKey? ⟨program, package, file.id⟩)

theorem checkPackage_eq (store : FactStore) (package : Package) :
    program.checkPackage settings store package =
      package.files.flatMap fun file => file.file.functions.flatMap fun func =>
        ((program.scan settings store package file.id).function func).2 := by
  unfold checkPackage scanFunctions
  rw [List.flatMap_assoc]
  simp only [List.flatMap_map]

/-- With more disposers known among the functions that a package calls, its
findings are among those from before, in the same order. -/
theorem checkPackage_sublist (few many : FactStore) (package : Package)
    (more : ∀ key ∈ program.calledKeys package,
      few.isDisposer key = true → many.isDisposer key = true) :
    (program.checkPackage settings many package).Sublist
      (program.checkPackage settings few package) := by
  rw [checkPackage_eq, checkPackage_eq]
  apply List.Sublist.flatMap_right
  intro file inPackage
  apply List.Sublist.flatMap_right
  intro func inFile
  apply Scan.function_sublist (program.scan settings few package file.id) many.isDisposer func
  intro callee member key target known
  refine more key ?_ known
  exact List.mem_flatMap.mpr ⟨file, inPackage, List.mem_flatMap.mpr
    ⟨func, inFile, List.mem_filterMap.mpr ⟨callee, member, target⟩⟩⟩

/-- The findings of a package depend on the facts about the functions that it
calls and on no others. -/
theorem checkPackage_congr (first second : FactStore) (package : Package)
    (same : ∀ key ∈ program.calledKeys package, first.isDisposer key = second.isDisposer key) :
    program.checkPackage settings first package = program.checkPackage settings second package := by
  apply List.Sublist.antisymm
  · exact program.checkPackage_sublist settings second first package
      fun key member known => (same key member).trans known
  · exact program.checkPackage_sublist settings first second package
      fun key member known => (same key member).symm.trans known

end Program
end Unclosed
