import Unclosed.Proofs.ScopeSteps
import Unclosed.Proofs.TypingBodies

/-!
Names around a checked node keep their meaning.  Whatever a node pushes onto the
stacks of the scope is popped when it has been checked.  A statement may declare
names in the innermost block; blocks further out, the names of the package and
of its imports, the result types of the functions around and all declarations
that were there stay as they are.  Expressions, type expressions and statements
that have blocks of their own change no scope at all.
-/

namespace Unclosed

def Stmt.enclosed : Stmt → Bool
  | .block _ | .conditional _ _ _ _ _ | .loop _ _ _ _ _ | .range _ _ _ _ _ _ | .switch _ _ _ _
  | .typeSwitch _ _ _ _ _ => true
  | _ => false

namespace Typing

variable {environment : Environment} {sites : Site → Prop} {typed : Prop}

def denoted (environment : Environment) (scope : Scope) (state : TypingState) (name : String) :
    Option (SymbolId × Symbol) := do
  let id ← (((lookup scope name).run environment).run state).1
  return (id, ← state.symbols.get? id)

section Meanings

variable {scope bound : Scope} {state next : TypingState} {name : String}

theorem resolved_of_lookup (package : bound.packageNames = scope.packageNames)
    (files : bound.fileNames = scope.fileNames) (same : bound.lookup name = scope.lookup name) :
    (((lookup bound name).run environment).run next).1 =
      (((lookup scope name).run environment).run state).1 := by
  change (_ <|> _ <|> bound.imported? _ _ <|> _) = (_ <|> _ <|> scope.imported? _ _ <|> _)
  rw [same, package, Scope.imported?, Scope.imported?, files]

theorem denoted_kept (kept : state.Keeps sites typed next) (holds : typed)
    (same : (((lookup bound name).run environment).run next).1 =
      (((lookup scope name).run environment).run state).1)
    {meaning : SymbolId × Symbol} (known : denoted environment scope state name = some meaning) :
    denoted environment bound next name = some meaning := by
  unfold denoted at known ⊢
  rw [same]
  cases found : (((lookup scope name).run environment).run state).1 with
  | none => rw [found] at known; cases known
  | some id =>
    rw [found] at known
    cases record : state.symbols.get? id with
    | none => simp [record] at known
    | some symbol =>
      obtain ⟨type, later, settled⟩ := kept.symbols id symbol record
      rw [settled holds] at later
      simpa [record, later] using known

end Meanings

theorem looks_kept {α : Type} {action : Checker α} {mentions : List Mention} {scope : Scope}
    {state : TypingState} {post : TypingState → α → Prop}
    (looks : (keeping environment (environment.places mentions) True).Looks state scope action
      post) :
    let result := action.runIn environment scope state
    result.1.2 = scope ∧ state.Keeps (environment.places mentions) True result.2 ∧
      ∀ name meaning, denoted environment scope state name = some meaning →
        denoted environment result.1.2 result.2 name = some meaning := by
  intro result
  obtain ⟨kept, same, _⟩ := Regime.Moves.iff_runIn.mp looks state (.refl state) trivial
  have same : result.1.2 = scope := same
  rw [same]
  exact ⟨rfl, kept, fun _ _ => denoted_kept kept trivial rfl⟩

/-- Checking leaves the stacks as it found them.  Only the innermost block of a
statement may change, and there the statement only adds declarations of its own
identifiers. -/
theorem scopes_kept (environment : Environment) (scope : Scope) (state : TypingState) :
    (∀ hint expr, let result := (checkExpr hint expr).runIn environment scope state
      result.1.2 = scope ∧ state.Keeps (environment.places expr.mentions) True result.2 ∧
      ∀ name meaning, denoted environment scope state name = some meaning →
        denoted environment result.1.2 result.2 name = some meaning) ∧
    (∀ type, let result := (resolveType type).runIn environment scope state
      result.1.2 = scope ∧ state.Keeps (environment.places type.mentions) True result.2 ∧
      ∀ name meaning, denoted environment scope state name = some meaning →
        denoted environment result.1.2 result.2 name = some meaning) ∧
    ∀ stmt, let result := (checkStmt stmt).runIn environment scope state
      let after := result.1.2
      state.Keeps (environment.places stmt.mentions) (scope.isPackage = false) result.2 ∧
      after.packageNames = scope.packageNames ∧ after.fileNames = scope.fileNames ∧
      after.results = scope.results ∧ after.blocks.length = scope.blocks.length ∧
      after.blocks.tail = scope.blocks.tail ∧
      scope.Gains environment.file stmt.adds state result.2 after ∧
      (stmt.enclosed = true → after = scope) ∧
      ∀ name, name ∉ (stmt.adds scope.names).map Ident.name →
        (((lookup after name).run environment).run result.2).1 =
            (((lookup scope name).run environment).run state).1 ∧
          (scope.isPackage = false → ∀ meaning,
            denoted environment scope state name = some meaning →
              denoted environment after result.2 name = some meaning) := by
  refine ⟨fun hint expr => ?_, fun type => ?_, fun stmt => ?_⟩
  · exact looks_kept (checkExpr_meets expr (Environment.marks_places _) trivial
      fun _ _ => trivial)
  · exact looks_kept (resolveType_meets type (Environment.marks_places _) trivial)
  · have moves : (keeping environment (environment.places stmt.mentions)
        (scope.isPackage = false)).Moves state scope (checkStmt stmt) fun next _ after =>
          scope.Gains environment.file stmt.adds state next after :=
      checkStmt_meets stmt (Environment.marks_places _)
        ⟨trivial, fun package inner => by simp [inner] at package⟩
    obtain ⟨kept, gains⟩ := Regime.Moves.iff_runIn.mp moves state (.refl state) trivial
    have around := gains.leave
    simp only [Scope.leave, Scope.mk.injEq] at around
    obtain ⟨package, files, outer, results⟩ := around
    refine ⟨kept, package, files, results, gains.depth, outer, gains, fun enclosed => ?_,
      fun name absent => ?_⟩
    · exact gains.stays (by cases stmt <;> first | rfl | cases enclosed)
    · have same := gains.lookup absent
      exact ⟨resolved_of_lookup package files same, fun inner _ =>
        denoted_kept kept inner (resolved_of_lookup package files same)⟩

/-- Behind `{ c := 1 }` the name stands for the outer variable again. -/
theorem hidden_name_restored :
    let environment : Environment := ⟨"app", ⟨0⟩, 0, []⟩
    let outer : Symbol := .predeclared .var "c" (TypeTable.basic .int)
    let scope : Scope := ⟨[], [], [[("c", ⟨0⟩)]], [[]]⟩
    let state : TypingState := ⟨.initial, ⟨#[outer]⟩, .empty, [], none⟩
    let stmt : Stmt := .block (.mk
      [.assign ⟨2, 8⟩ [.ident ⟨"c", ⟨2, 3⟩⟩] .define [.literal ⟨7, 8⟩ .int "1"]] ⟨0, 10⟩)
    let result := (checkStmt stmt).runIn environment scope state
    result.2.symbols.size = 2 ∧ result.1.2 = scope ∧
      denoted environment result.1.2 result.2 "c" = some (⟨0⟩, outer) := by
  intro environment outer scope state stmt result
  obtain ⟨_, _, _, _, _, _, _, restored, names⟩ := (scopes_kept environment scope state).2.2 stmt
  exact ⟨by decide +kernel, restored rfl, (names "c" (by simp [stmt, Stmt.adds])).2 rfl _ rfl⟩

end Typing
end Unclosed
