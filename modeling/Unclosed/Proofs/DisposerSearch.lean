import Unclosed.Analysis.Summary

/-!
What the search for the closing of a parameter depends on.  A search consults
calls of the body it searches and nothing else, and it only ever asks whether a
call closes the parameter.  So one search finds what another finds as soon as it
says yes to every call of the body to which the other does.
-/

namespace Unclosed

/-! ### Consulted calls -/

mutual

def Expr.consulted : Expr → List (Expr × List Expr)
  | .call _ callee arguments _ =>
    (callee, arguments) ::
      (callee.consultedBody ++ callee.consulted ++ consultedInExprs arguments)
  | .paren _ operand | .unary _ _ operand => operand.consulted
  | .binary _ _ left right => left.consulted ++ right.consulted
  | _ => []

def consultedInExprs : List Expr → List (Expr × List Expr)
  | [] => []
  | expr :: later => expr.consulted ++ consultedInExprs later

def Expr.consultedBody : Expr → List (Expr × List Expr)
  | .paren _ inner => inner.consultedBody
  | .function _ _ body => body.consulted
  | _ => []

def Block.consulted : Block → List (Expr × List Expr)
  | .mk stmts _ => consultedInStmts stmts

def consultedInStmts : List Stmt → List (Expr × List Expr)
  | [] => []
  | stmt :: later => stmt.consulted ++ consultedInStmts later

/-- Of a conditional the initial statement and the first body, of an assignment
the values. -/
def Stmt.consulted : Stmt → List (Expr × List Expr)
  | .conditional _ init _ body _ => consultedInOptionalStmt init ++ body.consulted
  | .returns _ results => consultedInExprs results
  | .defer _ expr | .expr _ expr => expr.consulted
  | .assign _ _ _ values => consultedInExprs values
  | .decl _ (.var specs) => consultedInSpecs specs
  | _ => []

def consultedInOptionalStmt : Option Stmt → List (Expr × List Expr)
  | none => []
  | some stmt => stmt.consulted

def consultedInSpecs : List ValueSpec → List (Expr × List Expr)
  | [] => []
  | .mk _ _ values _ _ :: later => consultedInExprs values ++ consultedInSpecs later

end

/-! ### Consulted calls are calls of the body -/

variable {call : Expr × List Expr}

mutual

theorem Expr.mem_callees_of_consulted (expr : Expr)
    (member : call ∈ expr.consulted) : call.1 ∈ expr.callees := by
  cases expr with
  | call span callee arguments spread =>
    rcases List.mem_cons.mp member with rfl | inside
    · exact List.mem_cons_self
    · refine List.mem_cons_of_mem _ (List.mem_append.mpr ?_)
      refine (List.mem_append.mp inside).imp (fun inCallee => ?_) (mem_calleesOfExprs arguments)
      exact (List.mem_append.mp inCallee).elim callee.mem_callees_of_consultedBody
        callee.mem_callees_of_consulted
  | paren span operand | unary span op operand => exact operand.mem_callees_of_consulted member
  | binary span op left right =>
    exact List.mem_append.mpr ((List.mem_append.mp member).imp left.mem_callees_of_consulted
      right.mem_callees_of_consulted)
  | _ => cases member

theorem mem_calleesOfExprs (exprs : List Expr)
    (member : call ∈ consultedInExprs exprs) : call.1 ∈ calleesOfExprs exprs := by
  cases exprs with
  | nil => cases member
  | cons expr later =>
    exact List.mem_append.mpr ((List.mem_append.mp member).imp expr.mem_callees_of_consulted
      (mem_calleesOfExprs later))

theorem Expr.mem_callees_of_consultedBody (expr : Expr)
    (member : call ∈ expr.consultedBody) : call.1 ∈ expr.callees := by
  cases expr with
  | paren span inner => exact inner.mem_callees_of_consultedBody member
  | function span signature body => exact body.mem_callees_of_consulted member
  | _ => cases member

theorem Block.mem_callees_of_consulted (block : Block)
    (member : call ∈ block.consulted) : call.1 ∈ block.callees := by
  cases block with
  | mk stmts span => exact mem_calleesOfStmts stmts member

theorem mem_calleesOfStmts (stmts : List Stmt)
    (member : call ∈ consultedInStmts stmts) : call.1 ∈ calleesOfStmts stmts := by
  cases stmts with
  | nil => cases member
  | cons stmt later =>
    exact List.mem_append.mpr ((List.mem_append.mp member).imp stmt.mem_callees_of_consulted
      (mem_calleesOfStmts later))

theorem Stmt.mem_callees_of_consulted (stmt : Stmt)
    (member : call ∈ stmt.consulted) : call.1 ∈ stmt.callees := by
  cases stmt with
  | conditional span init condition body alternative =>
    refine List.mem_append_left _ (List.mem_append.mpr ?_)
    exact (List.mem_append.mp member).imp
      (fun inInit => List.mem_append_left _ (mem_calleesOfOptionalStmt init inInit))
      body.mem_callees_of_consulted
  | returns span results => exact mem_calleesOfExprs results member
  | defer span expr | expr span expr => exact expr.mem_callees_of_consulted member
  | assign span targets op values =>
    exact List.mem_append_right _ (mem_calleesOfExprs values member)
  | decl span decl =>
    cases decl with
    | var specs => exact mem_calleesOfSpecs specs member
    | _ => cases member
  | _ => cases member

theorem mem_calleesOfOptionalStmt (stmt : Option Stmt)
    (member : call ∈ consultedInOptionalStmt stmt) : call.1 ∈ calleesOfOptionalStmt stmt := by
  cases stmt with
  | none => cases member
  | some stmt => exact stmt.mem_callees_of_consulted member

theorem mem_calleesOfSpecs (specs : List ValueSpec)
    (member : call ∈ consultedInSpecs specs) : call.1 ∈ calleesOfSpecs specs := by
  cases specs with
  | nil => cases member
  | cons spec later =>
    cases spec with
    | mk names type values position span =>
      exact List.mem_append.mpr ((List.mem_append.mp member).imp (mem_calleesOfExprs values)
        (mem_calleesOfSpecs later))

end

/-! ### The search by its consulted calls -/

namespace DisposerSearch

def closes (search : DisposerSearch) (call : Expr × List Expr) : Bool :=
  search.closesDirectly call.1 || search.handsOver call.1 call.2

section Search

variable (search : DisposerSearch)

theorem or_eq_any_append {search : DisposerSearch} {first second : List (Expr × List Expr)}
    {inFirst inSecond : Bool} (left : inFirst = first.any search.closes)
    (right : inSecond = second.any search.closes) :
    (inFirst || inSecond) = (first ++ second).any search.closes := by
  rw [List.any_append, left, right]

mutual

theorem inExpr_eq (expr : Expr) : search.inExpr expr = expr.consulted.any search.closes := by
  cases expr with
  | call span callee arguments spread =>
    have whole : search.inExpr (.call span callee arguments spread) =
        (search.closes (callee, arguments) || search.inLiteral callee || search.inExpr callee
          || search.inExprs arguments) := rfl
    have parts := or_eq_any_append (or_eq_any_append (inLiteral_eq callee) (inExpr_eq callee))
      (inExprs_eq arguments)
    rw [whole, Bool.or_assoc (search.closes _), Bool.or_assoc (search.closes _), parts]
    rfl
  | paren span operand | unary span op operand => exact inExpr_eq operand
  | binary span op left right =>
    exact or_eq_any_append (inExpr_eq left) (inExpr_eq right)
  | _ => rfl

theorem inExprs_eq (exprs : List Expr) :
    search.inExprs exprs = (consultedInExprs exprs).any search.closes := by
  cases exprs with
  | nil => rfl
  | cons expr later => exact or_eq_any_append (inExpr_eq expr) (inExprs_eq later)

theorem inLiteral_eq (expr : Expr) :
    search.inLiteral expr = expr.consultedBody.any search.closes := by
  cases expr with
  | paren span inner => exact inLiteral_eq inner
  | function span signature body => exact inBlock_eq body
  | _ => rfl

theorem inBlock_eq (block : Block) : search.inBlock block = block.consulted.any search.closes := by
  cases block with
  | mk stmts span => exact inStmts_eq stmts

theorem inStmts_eq (stmts : List Stmt) :
    search.inStmts stmts = (consultedInStmts stmts).any search.closes := by
  cases stmts with
  | nil => rfl
  | cons stmt later => exact or_eq_any_append (inStmt_eq stmt) (inStmts_eq later)

theorem inStmt_eq (stmt : Stmt) : search.inStmt stmt = stmt.consulted.any search.closes := by
  cases stmt with
  | conditional span init condition body alternative =>
    exact or_eq_any_append (inOptionalStmt_eq init) (inBlock_eq body)
  | returns span results => exact inExprs_eq results
  | defer span expr | expr span expr => exact inExpr_eq expr
  | assign span targets op values => exact inExprs_eq values
  | decl span decl =>
    cases decl with
    | var specs => exact inSpecs_eq specs
    | _ => rfl
  | _ => rfl

theorem inOptionalStmt_eq (stmt : Option Stmt) :
    search.inOptionalStmt stmt = (consultedInOptionalStmt stmt).any search.closes := by
  cases stmt with
  | none => rfl
  | some stmt => exact inStmt_eq stmt

theorem inSpecs_eq (specs : List ValueSpec) :
    search.inSpecs specs = (consultedInSpecs specs).any search.closes := by
  cases specs with
  | nil => rfl
  | cons spec later =>
    cases spec with
    | mk names type values position span =>
      exact or_eq_any_append (inExprs_eq values) (inSpecs_eq later)

end

end Search

/-- Every listed call that closes the parameter for the first search closes it
for the second. -/
structure Covers (first second : DisposerSearch) (callees : List Expr) : Prop where
  direct : ∀ callee ∈ callees,
    first.closesDirectly callee = true → second.closesDirectly callee = true
  handed : ∀ callee ∈ callees, ∀ arguments,
    first.handsOver callee arguments = true → second.handsOver callee arguments = true

theorem inBlock_of_covers {first second : DisposerSearch} (block : Block)
    (covers : Covers first second block.callees) (found : first.inBlock block = true) :
    second.inBlock block = true := by
  rw [inBlock_eq, List.any_eq_true] at found ⊢
  obtain ⟨call, consulted, closed⟩ := found
  have called : call.1 ∈ block.callees := block.mem_callees_of_consulted consulted
  refine ⟨call, consulted, ?_⟩
  simp only [closes, Bool.or_eq_true] at closed ⊢
  exact closed.imp (covers.direct call.1 called) (covers.handed call.1 called call.2)

/-- Searches of one view for one parameter differ only in the functions they
know, so it is enough to compare those that the listed calls run. -/
theorem covers_of_known (view : FileView) (method : String) (param : SymbolId)
    (known more : SymbolId → Bool) (callees : List Expr)
    (carried : ∀ symbol ∈ callees.filterMap fun callee => (view.callee? callee).map Prod.fst,
      known symbol = true → more symbol = true) :
    Covers ⟨view, method, known, param⟩ ⟨view, method, more, param⟩ callees where
  direct _ _ direct := direct
  handed callee member arguments handed := by
    simp only [handsOver, isKnownDisposer, Bool.and_eq_true] at handed ⊢
    refine ⟨?_, handed.2⟩
    cases target : view.callee? callee with
    | none => simp only [target] at handed; cases handed.1
    | some pair =>
      simp only [target] at handed
      have called : pair.1 ∈
          callees.filterMap fun callee => (view.callee? callee).map Prod.fst :=
        List.mem_filterMap.mpr ⟨callee, member, by rw [target]; rfl⟩
      exact carried pair.1 called handed.1

/-- A search consults calls of its statements alone, and finds what one of them
closes.  So it depends on what is known about the functions that the statements
call, and on no others. -/
theorem inStmts_within_called (view : FileView) (method : String) (param : SymbolId)
    (stmts : List Stmt) (span : Span) :
    (∀ call ∈ consultedInStmts stmts, call.1 ∈ calleesOfStmts stmts) ∧
      (∀ known, inStmts ⟨view, method, known, param⟩ stmts =
        (consultedInStmts stmts).any (closes ⟨view, method, known, param⟩)) ∧
      ∀ known other : SymbolId → Bool,
        (∀ symbol ∈ Summarizer.calledSymbols view (.mk stmts span),
          known symbol = other symbol) →
        inStmts ⟨view, method, known, param⟩ stmts = inStmts ⟨view, method, other, param⟩ stmts := by
  have carried : ∀ known other : SymbolId → Bool,
      (∀ symbol ∈ Summarizer.calledSymbols view (.mk stmts span), known symbol = other symbol) →
      inStmts ⟨view, method, known, param⟩ stmts = true →
      inStmts ⟨view, method, other, param⟩ stmts = true := by
    intro known other same
    apply inBlock_of_covers (.mk stmts span)
    exact covers_of_known view method param known other _ fun symbol called holds =>
      same symbol called ▸ holds
  refine ⟨fun call => mem_calleesOfStmts stmts, fun known => inStmts_eq _ stmts, ?_⟩
  intro known other same
  exact Bool.eq_iff_iff.mpr ⟨carried known other same,
    carried other known fun symbol called => (same symbol called).symm⟩

end DisposerSearch

/-! ### Candidates -/

namespace Summarizer

variable (summarizer : Summarizer)

/-- What a candidate tells about itself agrees with the program. -/
structure Describes (summarizer : Summarizer) (candidate : Candidate) : Prop where
  callees : candidate.callees = calledSymbols (summarizer.view candidate.file) candidate.body
  key : (summarizer.program.symbols.get? candidate.symbol).bind Symbol.key = some candidate.key

theorem describes_of_candidate? (file : FileId) (func : FuncDecl) (candidate : Candidate)
    (accepted : candidate? (summarizer.view file) func = some candidate) :
    summarizer.Describes candidate := by
  simp only [candidate?, Option.bind_eq_bind, Option.bind_eq_some_iff] at accepted
  obtain ⟨body, _, id, _, symbol, found, key, keyed, type, _, built⟩ := accepted
  split at built
  · cases built
  · cases built
    have stored : summarizer.program.symbols.get? id = some symbol := found
    exact ⟨rfl, by rw [stored]; exact keyed⟩

variable (candidate : Candidate)
include candidate

theorem describes_of_mem_all (member : candidate ∈ summarizer.allCandidates) :
    summarizer.Describes candidate := by
  obtain ⟨file, _, inFile⟩ := List.mem_flatMap.mp member
  obtain ⟨func, _, accepted⟩ := List.mem_filterMap.mp inFile
  exact summarizer.describes_of_candidate? file.id func candidate accepted

theorem mem_candidates :
    candidate ∈ summarizer.candidates ↔
      candidate ∈ summarizer.allCandidates ∧ summarizer.facts.contains candidate.key = false := by
  simp only [candidates, List.mem_filter, Bool.not_eq_true']

theorem describes_of_mem (member : candidate ∈ summarizer.candidates) :
    summarizer.Describes candidate :=
  summarizer.describes_of_mem_all candidate ((summarizer.mem_candidates candidate).mp member).1

/-- More functions known to close what they are given, among those that a
candidate calls, never keep the candidate from closing its parameters. -/
theorem closesParams_of_known (described : summarizer.Describes candidate)
    (known more : SymbolId → Bool)
    (carried : ∀ symbol ∈ candidate.callees, known symbol = true → more symbol = true)
    (closes : summarizer.closesParams known candidate = true) :
    summarizer.closesParams more candidate = true := by
  rw [described.callees] at carried
  simp only [closesParams, List.all_eq_true] at closes ⊢
  intro param member
  have closed := closes param member
  cases param with
  | none => cases closed
  | some symbol =>
    exact DisposerSearch.inBlock_of_covers candidate.body
      (DisposerSearch.covers_of_known _ _ symbol known more _ carried) closed

/-- The answer depends on the functions that the candidate calls and on no
others. -/
theorem closesParams_congr (described : summarizer.Describes candidate)
    (known other : SymbolId → Bool)
    (same : ∀ symbol ∈ candidate.callees, known symbol = other symbol) :
    summarizer.closesParams known candidate = summarizer.closesParams other candidate := by
  apply Bool.eq_iff_iff.mpr
  constructor
  · exact summarizer.closesParams_of_known candidate described known other
      fun symbol member holds => same symbol member ▸ holds
  · exact summarizer.closesParams_of_known candidate described other known
      fun symbol member holds => (same symbol member).symm ▸ holds

end Summarizer
end Unclosed
