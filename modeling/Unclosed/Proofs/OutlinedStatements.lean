import Unclosed.Proofs.OutlinedExpressions

/-!
Declarations, statements and whole files in two runs, with faithful outlines.
-/

namespace Unclosed.Grammar

open Grammar.Parser

variable {cursor start rest first : Cursor} {depth least : Nat} {op : AssignOp} {α : Type}
  {expr : Expr} {tail : List Char}

/-! ### Looks ahead -/

theorem Cursor.atEnd_followedBy {gauge : Gauge} (nil : gauge [] = false)
    (enclosed : cursor.Enclosed tail gauge) :
    (cursor.followedBy tail).atEnd = cursor.atEnd := by
  rcases enclosed.2 with rfl | closed
  · rw [followedBy_nil]
  · have nonempty := rest_ne_nil nil closed
    obtain ⟨next, rest, text⟩ := List.exists_cons_of_ne_nil nonempty
    simp [atEnd, followedBy, text]

theorem endsSpecNames_followedBy (newLine : NewLine tail) (cursor : Cursor) :
    endsSpecNames (cursor.followedBy tail) = endsSpecNames cursor := by
  rw [endsSpecNames, endsSpecNames, Cursor.startsWith_followedBy newLine (by decide),
    Cursor.startsWith_followedBy newLine (by decide), atLineEnd_followedBy newLine]

theorem keyword_isDone_followedBy (word : String)
    (enclosed : cursor.Enclosed tail (closes (depth + 1)))
    (unmarked : word.toList ≠ [] ∧ ∀ character ∈ word.toList, character ∉ marks) :
    (keyword word (cursor.followedBy tail)).isDone = (keyword word cursor).isDone := by
  have balanced : BalancedToken tail (cursor.rest.length + 1) 1 (keyword word) :=
    keyword_balanced unmarked
  exact ((balanced depth cursor (Nat.lt_succ_self _)).alike enclosed).isDone

theorem endsStatements_followedBy (enclosed : cursor.Enclosed tail (closes (depth + 1))) :
    endsStatements (cursor.followedBy tail) = endsStatements cursor := by
  rw [endsStatements, endsStatements, Cursor.atEnd_followedBy (closes_nil depth) enclosed,
    Cursor.startsWith_followedBy enclosed.1 (by decide),
    keyword_isDone_followedBy "case" enclosed (by decide),
    keyword_isDone_followedBy "default" enclosed (by decide)]

theorem assignOperatorIn_followedBy (newLine : NewLine tail) (cursor : Cursor)
    (spellings : List (String × AssignOp)) (inLine : ∀ entry ∈ spellings, '\n' ∉ entry.1.toList) :
    assignOperatorIn spellings (cursor.followedBy tail)
      = (assignOperatorIn spellings cursor).map fun found => (found.1, found.2.followedBy tail) := by
  induction spellings with
  | nil => rfl
  | cons entry others ih =>
    obtain ⟨spelling, op⟩ := entry
    rw [assignOperatorIn, assignOperatorIn,
      Cursor.after?_followedBy newLine (inLine _ (List.mem_cons_self ..))]
    cases cursor.after? spelling with
    | none => exact ih fun entry member => inLine entry (.tail _ member)
    | some rest =>
      dsimp only [Option.map_some]
      rw [Cursor.startsWith_followedBy newLine (by decide)]
      split <;> rfl

theorem assignOperator?_followedBy (newLine : NewLine tail) (cursor : Cursor) :
    assignOperator? (cursor.followedBy tail)
      = (assignOperator? cursor).map fun found => (found.1, found.2.followedBy tail) :=
  assignOperatorIn_followedBy newLine cursor _ (by decide)

theorem steps_divide : Steps "/=" (closes depth) (closes depth) where
  inLine := by decide
  leads := by
    intro start rest found
    refine ⟨(Cursor.reaches_of_after? found).mono (by decide), ?_⟩
    have text : start.rest = '/' :: '=' :: rest.rest := Cursor.text_of_after? found
    rw [text, closes_slash, closes_plain (by decide)]
    · intro more same
      cases same
    · intro more same
      cases same

theorem leads_of_assignOperatorIn {spellings : List (String × AssignOp)}
    (words : ∀ entry ∈ spellings, entry.1 = "/=" ∨ entry.1.toList ≠ []
      ∧ ∀ character ∈ entry.1.toList, character ∉ marks)
    (found : assignOperatorIn spellings start = some (op, rest)) (depth : Nat) :
    start.Leads 1 (closes depth) rest (closes depth) := by
  induction spellings with
  | nil => cases found
  | cons entry others ih =>
    obtain ⟨spelling, op'⟩ := entry
    rw [assignOperatorIn] at found
    cases after : start.after? spelling with
    | none =>
      rw [after] at found
      exact ih (fun entry member => words entry (.tail _ member)) found
    | some rest' =>
      rw [after] at found
      dsimp only at found
      split at found
      · cases found
      · cases found
        rcases words _ (List.mem_cons_self ..) with divide | plain
        · dsimp only at divide
          subst divide
          exact steps_divide.leads start rest after
        · exact (Steps.plain plain).leads start rest after

theorem leads_of_assignOperator? (found : assignOperator? start = some (op, rest)) (depth : Nat) :
    start.Leads 1 (closes depth) rest (closes depth) :=
  leads_of_assignOperatorIn (by decide) found depth

section Productions

variable {tail : List Char} {limit : Nat} {rules rules' : Rules}
  (follow : rules.Follow tail limit rules')
include follow

/-! ### Declarations -/

omit follow in
theorem grouped_eq (rules : Rules) (spec : Parser α) :
    grouped rules spec = (do
      let before ← here
      blanks
      if ← accept "(" then
        itemsUntil rules ")" spec
      else do
        resume before
        let item ← spec
        pure [item]) := by
  funext cursor
  change grouped rules spec cursor = (accept "(" >>= fun opened => if opened = true then
    itemsUntil rules ")" spec else do resume cursor; let item ← spec; pure [item])
      (Blank.skip cursor)
  rw [bind_apply, accept]
  dsimp only [grouped]
  cases (Blank.skip cursor).after? "(" <;> rfl

theorem grouped_outlined {spec spec' : Parser α} {read : α → List Outline}
    (outlined : Outlined tail (limit + 1) 1 spec spec' (Shows read)) :
    Outlined tail (limit + 1) 1 (grouped rules spec) (grouped rules' spec')
      (Shows fun specs => specs.flatMap read) := by
  rw [grouped_eq, grouped_eq]
  apply Outlined.of_continues
  intro depth first
  apply Continues.here
  intro before led drawn
  apply Continues.blanks
  apply Continues.accept (.opening rfl rfl)
  · exact .lastConsult rfl (itemsUntil_draws follow (.closing rfl rfl)
      (outlined.mono (Nat.le_refl 1) (Nat.le_succ limit))) fun _ => ⟨rfl, rfl⟩
  · apply Continues.resume led drawn
    apply Continues.bind (outlined depth)
    intro item
    exact .done ⟨rfl, rfl⟩ (by simp)

omit follow in
theorem numberSpecs_outlines (position : Nat) (specs : List ValueSpec) :
    valueSpecOutlines (numberSpecs position specs) = valueSpecOutlines specs := by
  induction specs generalizing position with
  | nil => rfl
  | cons spec later ih =>
    cases spec
    simp [numberSpecs, ValueSpec.withPosition, ValueSpec.outline, valueSpecOutlines, ih]

theorem valueSpec_outlined :
    Outlined tail (limit + 1) 1 (valueSpec rules) (valueSpec rules')
      (Shows fun spec => [spec.outline]) := by
  have typed : Outlined tail (limit + 1) 0 (some <$> typeHere rules) (some <$> typeHere rules')
      (Shows optionalTypeOutlines) :=
    present_outlined (by simp) (typeHere_outlined follow)
  have unset : Outlined tail (limit + 1) 0 (pure []) (pure []) (Shows exprOutlines) :=
    .of_continues fun _ _ => .done ⟨rfl, rfl⟩ (by simp)
  apply Outlined.of_start
  intro depth first start
  apply Continues.bind (names_outlined follow depth)
  intro names
  apply Continues.skip (lineBlanks_balanced depth)
  apply Continues.here
  intro place _ _
  rw [endsSpecNames_followedBy follow.newLine]
  apply Continues.choose (absent_outlined rfl depth) (typed depth)
  intro type
  apply Continues.acceptsThen (lineSymbol_tracks (.plain (by decide)))
    ((expressionListWith_outlined follow true).mono (Nat.zero_le 1) (Nat.le_refl _) depth)
    (unset depth)
  intro values
  exact .close (fun _ => ⟨rfl, rfl⟩) (fun _ => rfl) (by simp)

theorem typeSpec_outlined :
    Outlined tail (limit + 1) 1 (typeSpec rules) (typeSpec rules')
      (Shows fun spec => [spec.outline]) := by
  apply Outlined.of_start
  intro depth first start
  apply Continues.bind (identifier_outlined depth)
  intro name
  have typed (isAlias : Bool) : Continues tail (limit + 1) first (closes (depth + 1)) start 1
      (closes (depth + 1)) [name.outline]
      (do
        let type ← context "type" (typeExpr rules)
        let span ← spanFrom start
        pure (TypeSpec.mk name isAlias type span))
      (do
        let type ← context "type" (typeExpr rules')
        let span ← spanFrom (start.followedBy tail)
        pure (TypeSpec.mk name isAlias type span))
      (fun _ => 1) (fun _ => closes (depth + 1)) (Shows fun spec => [spec.outline]) := by
    apply Continues.bind (context_draws "type" (typeExpr_outlined follow depth))
    intro type
    exact .close (fun _ => ⟨rfl, rfl⟩) (fun _ => rfl) (by simp)
  exact .accepts (lineSymbol_tracks (.plain (by decide))) ((typed true).weaken rfl) (typed false)

theorem declared_outlined {word label : String} {spec spec' : Parser α} {declare : List α → Decl}
    {read : α → List Outline}
    (unmarked : word.toList ≠ [] ∧ ∀ character ∈ word.toList, character ∉ marks)
    (outlined : Outlined tail (limit + 1) 1 spec spec' (Shows read))
    (shown : ∀ specs, (declare specs).outlines = specs.flatMap read) :
    Outlined tail (limit + 1) 1
      (do
        keyword word
        let specs ← context label (grouped rules spec)
        pure (declare specs))
      (do
        keyword word
        let specs ← context label (grouped rules' spec')
        pure (declare specs))
      (Shows Decl.outlines) := by
  apply Outlined.of_continues
  intro depth first
  apply Continues.skip (keyword_balanced unmarked depth)
  apply Continues.bind (context_draws label (grouped_outlined follow outlined depth))
  intro specs
  exact .done ⟨rfl, rfl⟩ (by simp [shown])

theorem varDecl_outlined :
    Outlined tail (limit + 1) 1 (varDecl rules) (varDecl rules') (Shows Decl.outlines) := by
  apply declared_outlined follow (by decide) (valueSpec_outlined follow)
  intro specs
  rw [Decl.outlines, valueSpecOutlines_eq, List.map_eq_flatMap]

theorem constDecl_outlined :
    Outlined tail (limit + 1) 1 (constDecl rules) (constDecl rules') (Shows Decl.outlines) := by
  apply declared_outlined follow (by decide) (valueSpec_outlined follow)
  intro specs
  rw [Decl.outlines, numberSpecs_outlines, valueSpecOutlines_eq, List.map_eq_flatMap]

theorem typeDecl_outlined :
    Outlined tail (limit + 1) 1 (typeDecl rules) (typeDecl rules') (Shows Decl.outlines) := by
  apply declared_outlined follow (by decide) (typeSpec_outlined follow)
  intro specs
  rw [Decl.outlines, typeSpecOutlines_eq, List.map_eq_flatMap]

theorem declaration_outlined :
    Outlined tail (limit + 1) 1 (declaration rules) (declaration rules') (Shows Decl.outlines) :=
  fun depth => orElse_draws (varDecl_outlined follow depth)
    (orElse_draws (constDecl_outlined follow depth) (typeDecl_outlined follow depth))

/-! ### Blocks -/

theorem statementTurn_draws (depth : Nat) :
    Draws tail limit (closes (depth + 1)) (statementTurn rules) (statementTurn rules') Turn.least
      (Turn.gauge (closes (depth + 1)) (closes (depth + 1)))
      (Shows (Turn.outlines fun stmt => [stmt.outline])) := by
  apply Draws.of_continues
  intro first
  apply Continues.blanks
  apply Continues.here
  intro place led _
  apply Continues.agree
  · intro enclosed
    exact endsStatements_followedBy (enclosed.of_leads led)
  · exact .done ⟨rfl, rfl⟩ (by simp)
  · apply Continues.accept (.plain (by decide))
    · exact .done ⟨rfl, rfl⟩ (by simp)
    · apply Continues.bind (follow.statement depth)
      intro stmt
      apply Continues.skip (statementEnd_balanced depth)
      exact .done ⟨rfl, rfl⟩ (by simp)

theorem statementList_outlined :
    Outlined tail limit 0 (statementList rules) (statementList rules') (Shows stmtOutlines) := by
  intro depth
  apply Draws.shown (collect_draws (statementTurn_draws follow depth) follow.bound follow.bound')
  intro stmts
  rw [stmtOutlines_eq, List.map_eq_flatMap]

theorem block_outlined :
    Outlined tail (limit + 1) 1 (block rules) (block rules')
      (Shows fun block => [block.outline]) := by
  apply Outlined.of_start
  intro depth first start
  apply Continues.skip (tag_tracks (.opening rfl rfl))
  apply Continues.consult rfl (statementList_outlined follow (depth + 1))
  intro stmts
  apply Continues.skip (context_tracks "closing brace" (symbol_tracks (.closing rfl rfl)))
  exact .close (fun _ => ⟨rfl, rfl⟩) (fun _ => rfl) (by simp)

/-! ### Simple statements -/

theorem labeledStatement_outlined :
    Outlined tail (limit + 1) 1 (labeledStatement rules) (labeledStatement rules')
      (Shows fun stmt => [stmt.outline]) := by
  apply Outlined.of_continues
  intro depth first
  apply Continues.skip (tag_tracks (.plain (by decide)))
  apply Continues.blanks
  apply Continues.restart
  intro start _
  apply Continues.look (nextIs_tracks (by decide))
  intro closed
  cases closed with
  | true =>
    apply Continues.redraw fun _ drawn => drawn.point
    exact .done ⟨rfl, rfl⟩ (by simp)
  | false => exact .lastConsult rfl (follow.statement depth) fun _ => ⟨rfl, rfl⟩

/-- Without an operator behind it, the expression ends where it did. -/
theorem expressionStatement_continues {anchor afterExpr : Cursor} {gauge₀ : Gauge} (literals : Bool)
    (ended : first.Leads 1 gauge₀ afterExpr (closes (depth + 1)))
    (drawn : Drawn anchor [expr.outline] afterExpr) :
    Continues tail (limit + 1) first gauge₀ anchor 1 (closes (depth + 1)) [expr.outline]
      (expressionStatement rules literals afterExpr expr)
      (expressionStatement rules' literals (afterExpr.followedBy tail) expr) (fun _ => 1)
      (fun _ => closes (depth + 1)) (Frames Stmt.outline) := by
  apply Continues.accept (.plain (by decide))
  · exact .pure ⟨rfl, rfl⟩ (fun _ => rfl) (List.Sublist.refl _)
  apply Continues.accept (.plain (by decide))
  · exact .pure ⟨rfl, rfl⟩ (fun _ => rfl) (List.Sublist.refl _)
  apply Continues.accepts (sendArrow_balanced depth)
  · apply Continues.bind (binaryExpr_outlined follow literals 1 depth)
    intro value
    exact .pure ⟨rfl, rfl⟩ (fun _ => rfl) (by simp)
  · apply Continues.resume ended drawn
    exact .pure ⟨rfl, rfl⟩ (fun _ => rfl) (List.Sublist.refl _)

omit follow in
theorem label?_followedBy (newLine : NewLine tail) (literals : Bool) (expr : Expr)
    (cursor : Cursor) :
    label? literals expr (cursor.followedBy tail) = label? literals expr cursor := by
  unfold label?
  split
  · rw [Cursor.startsWith_followedBy newLine (by decide)]
  · rfl

omit follow in
theorem label?_outline {literals : Bool} {name : Ident}
    (found : label? literals expr cursor = some name) : expr.outline = name.outline := by
  unfold label? at found
  split at found
  · split at found
    · cases found
      rfl
    · cases found
  · cases found

theorem simpleStatement_outlined (literals : Bool) :
    Outlined tail (limit + 1) 1 (simpleStatement rules literals) (simpleStatement rules' literals)
      (Shows fun stmt => [stmt.outline]) := by
  apply Outlined.of_start
  intro depth first start
  apply Continues.bind (expressionListWith_outlined follow literals depth)
  intro targets
  apply Continues.here
  intro afterTargets ended drawn
  apply Continues.skip (lineBlanks_balanced depth)
  apply Continues.here
  intro place led drawnPlace
  rw [assignOperator?_followedBy follow.newLine]
  cases assigned : assignOperator? place with
  | some operator =>
    obtain ⟨op, behind⟩ := operator
    have leads := leads_of_assignOperator? assigned (depth + 1)
    apply Continues.resume (led.trans leads)
      (drawnPlace.extend (leads.reaches.mono (Nat.zero_le _)))
    apply Continues.bind
      (context_draws "assignment" (expressionListWith_outlined follow literals depth))
    intro values
    exact .close (fun _ => ⟨rfl, rfl⟩) (fun _ => rfl) (by simp)
  | none =>
    dsimp only [Option.map_none]
    split
    · next expr =>
      apply Continues.here
      intro place _ _
      rw [label?_followedBy follow.newLine]
      cases found : label? literals expr place with
      | some name =>
        apply Continues.bind (labeledStatement_outlined follow depth)
        intro stmt
        exact .close (fun _ => ⟨rfl, rfl⟩) (fun _ => rfl)
          (by simp [label?_outline found])
      | none =>
        apply Continues.andThen (expressionStatement_continues follow literals ended drawn)
        intro build parts frames
        exact .close (fun _ => ⟨rfl, rfl⟩) (fun span => by rw [frames]) (List.Sublist.refl parts)
    · exact .failSaying _

/-! ### Conditionals and loops -/

omit follow in
theorem statement_present {parser parser' : Parser Stmt}
    (outlined : Outlined tail limit least parser parser' (Shows fun stmt => [stmt.outline])) :
    Outlined tail limit 0 (some <$> parser) (some <$> parser') (Shows optionalStmtOutlines) :=
  present_outlined (by simp) outlined

theorem alternative_outlined :
    Outlined tail limit 1 (alternative rules) (alternative rules')
      (Shows fun stmt => [stmt.outline]) := by
  apply Outlined.of_continues
  intro depth first
  apply Continues.blanks
  apply Continues.look (sees_tracks (keyword_balanced (by decide) depth))
  intro chained
  cases chained with
  | true => exact .last (follow.conditional depth) fun _ => ⟨rfl, rfl⟩
  | false =>
    apply Continues.bind
      (context_draws "else body" ((block_outlined follow depth).mono (Nat.le_succ limit)))
    intro body
    exact .done ⟨rfl, rfl⟩ (by simp)

theorem conditionalHeader_outlined :
    Outlined tail (limit + 1) 1 (conditionalHeader rules) (conditionalHeader rules')
      (Shows fun (init, condition) => optionalStmtOutlines init ++ [condition.outline]) := by
  apply Outlined.of_continues
  intro depth first
  apply Continues.bind (simpleStatement_outlined follow false depth)
  intro stmt
  apply Continues.accepts (symbol_tracks (.plain (by decide)))
  · apply Continues.bind (binaryExpr_outlined follow false 1 depth)
    intro condition
    exact .done ⟨rfl, rfl⟩ (by simp)
  · simp only [Bool.false_eq_true, if_false]
    split
    · -- The condition alone is left of the statement that it was read as.
      apply Continues.redraw fun stop drawn => drawn.unfold
      exact .done ⟨rfl, rfl⟩ (by simp)
    · exact .haltSaying _

theorem conditional_outlined :
    Outlined tail (limit + 1) 1 (conditional rules) (conditional rules')
      (Shows fun stmt => [stmt.outline]) := by
  apply Outlined.of_continues
  intro depth first
  apply Continues.restart
  intro start _
  apply Continues.skip (keyword_balanced (by decide) depth)
  apply Continues.bind (conditionalHeader_outlined follow depth)
  rintro ⟨init, condition⟩
  apply Continues.bind (context_draws "if body" (block_outlined follow depth))
  intro body
  apply Continues.accepts (keyword_balanced (by decide) depth)
  · apply Continues.consult rfl (statement_present (alternative_outlined follow) depth)
    intro branch
    exact .close (fun _ => ⟨rfl, rfl⟩) (fun _ => rfl) (by simp)
  · apply Continues.given
    exact .close (fun _ => ⟨rfl, rfl⟩) (fun _ => rfl) (by simp)

omit follow in
theorem targets_outlines (targets : List Expr) :
    (optionalOutlines targets[0]? ++ optionalOutlines targets[1]?).Sublist
      (exprOutlines targets) := by
  match targets with
  | [] => simp
  | [key] => simp
  | key :: value :: others => simp

theorem rangeClause_outlined :
    Outlined tail (limit + 1) 1 (rangeClause rules) (rangeClause rules') (Frames Stmt.outline) := by
  apply Outlined.of_continues
  intro depth first
  apply Continues.bind (expressionListWith_outlined follow false depth)
  intro targets
  have ranged (define : Bool) : Continues tail (limit + 1) first (closes (depth + 1)) first 1
      (closes (depth + 1)) (exprOutlines targets)
      (do
        keyword "range"
        let expr ← headerExpression rules
        let body ← block rules
        pure fun span => Stmt.range span targets[0]? targets[1]? define expr body)
      (do
        keyword "range"
        let expr ← headerExpression rules'
        let body ← block rules'
        pure fun span => Stmt.range span targets[0]? targets[1]? define expr body)
      (fun _ => 1) (fun _ => closes (depth + 1)) (Frames Stmt.outline) := by
    apply Continues.skip (keyword_balanced (by decide) depth)
    apply Continues.bind (binaryExpr_outlined follow false 1 depth)
    intro expr
    apply Continues.bind (block_outlined follow depth)
    intro body
    refine Continues.pure ⟨rfl, rfl⟩ (fun _ => rfl) ?_
    simpa using (targets_outlines targets).append (List.Sublist.refl [expr.outline, body.outline])
  apply Continues.accepts (lineSymbol_tracks (.plain (by decide)))
  · exact (ranged true).weaken rfl
  · apply Continues.skip (lineSymbol_tracks (.plain (by decide)))
    exact (ranged false).weaken rfl

/-- The clauses of a loop, of which the first one has been read. -/
theorem loopClauses_outlined (init : Option Stmt) :
    Outlined tail (limit + 1) 1 (loopClauses rules init) (loopClauses rules' init)
      fun build nodes => Frames Stmt.outline build (optionalStmtOutlines init ++ nodes) := by
  have tested : Outlined tail (limit + 1) 0 (some <$> headerExpression rules)
      (some <$> headerExpression rules') (Shows optionalOutlines) :=
    present_outlined (by simp) (binaryExpr_outlined follow false 1)
  apply Outlined.of_continues
  intro depth first
  apply Continues.blanks
  apply Continues.look (nextIs_tracks (by decide))
  intro semicolon
  apply Continues.choose (absent_outlined rfl depth) (tested depth)
  intro condition
  apply Continues.symbol (.plain (by decide))
  have closed (post : Option Stmt) : Continues tail (limit + 1) first (closes (depth + 1)) first 1
      (closes (depth + 1)) (optionalOutlines condition ++ optionalStmtOutlines post)
      (do
        let body ← block rules
        pure fun span => Stmt.loop span init condition post body)
      (do
        let body ← block rules'
        pure fun span => Stmt.loop span init condition post body)
      (fun _ => 1) (fun _ => closes (depth + 1))
      fun build nodes => Frames Stmt.outline build (optionalStmtOutlines init ++ nodes) := by
    apply Continues.bind (block_outlined follow depth)
    intro body
    exact .pure ⟨rfl, rfl⟩ (fun _ => by simp) (List.Sublist.refl _)
  apply Continues.here
  intro beforePost led drawn
  apply Continues.blanks
  apply Continues.look (nextIs_tracks (by decide))
  intro opened
  cases opened with
  | true =>
    have bare := closed none
    rw [optionalStmtOutlines, List.append_nil] at bare
    exact .given bare
  | false =>
    apply Continues.resume led drawn
    apply Continues.bind (statement_present (simpleStatement_outlined follow false) depth)
    intro post
    exact closed post

theorem plainLoop_outlined :
    Outlined tail (limit + 1) 1 (plainLoop rules) (plainLoop rules') (Frames Stmt.outline) := by
  apply Outlined.of_continues
  intro depth first
  apply Continues.look (nextIs_tracks (by decide))
  intro semicolon
  apply Continues.choose (absent_outlined rfl depth)
    (statement_present (simpleStatement_outlined follow false) depth)
  intro init
  apply Continues.accepts (symbol_tracks (.plain (by decide)))
  · exact .finish (loopClauses_outlined follow init depth) (Nat.le_add_right _ _)
      (fun _ => ⟨rfl, rfl⟩) fun _ _ framed => framed
  · simp only [Bool.false_eq_true, if_false]
    split
    · apply Continues.redraw fun stop drawn => drawn.unfold
      apply Continues.bind (block_outlined follow depth)
      intro body
      exact .pure ⟨rfl, rfl⟩ (fun _ => rfl)
        (by simp)
    · exact .haltSaying _

theorem loop_outlined :
    Outlined tail (limit + 1) 1 (loop rules) (loop rules') (Frames Stmt.outline) := by
  apply Outlined.of_continues
  intro depth first
  apply Continues.blanks
  apply Continues.look (nextIs_tracks (by decide))
  intro opened
  cases opened with
  | true =>
    apply Continues.bind (block_outlined follow depth)
    intro body
    exact .pure ⟨rfl, rfl⟩ (fun _ => rfl) (by simp)
  | false =>
    apply Continues.accepts (keyword_balanced (by decide) depth)
    · apply Continues.bind (binaryExpr_outlined follow false 1 depth)
      intro expr
      apply Continues.bind (block_outlined follow depth)
      intro body
      exact .pure ⟨rfl, rfl⟩ (fun _ => rfl) (by simp)
    · apply Continues.probe (rangeClause_outlined follow depth)
      · intro build nodes frames
        exact .pure ⟨rfl, rfl⟩ frames (by simp)
      · exact .last (plainLoop_outlined follow depth) fun _ => ⟨rfl, rfl⟩

/-! ### Switches -/

theorem clauseLabel_outlined :
    Outlined tail (limit + 1) 1 (clauseLabel rules) (clauseLabel rules') (Shows exprOutlines) := by
  apply Outlined.of_continues
  intro depth first
  apply Continues.accepts (keyword_balanced (by decide) depth)
  · apply Continues.bind (expressionListWith_outlined follow true depth)
    intro exprs
    apply Continues.symbol (.plain (by decide))
    exact .done ⟨rfl, rfl⟩ (by simp)
  · apply Continues.skip (keyword_balanced (by decide) depth)
    apply Continues.given
    apply Continues.symbol (.plain (by decide))
    exact .done ⟨rfl, rfl⟩ (by simp)

theorem clauseTurn_draws (depth : Nat) :
    Draws tail limit (closes (depth + 1)) (clauseTurn rules) (clauseTurn rules') Turn.least
      (Turn.gauge (closes (depth + 1)) (closes depth))
      (Shows (Turn.outlines fun clause => [clause.outline])) := by
  apply Draws.of_continues
  intro first
  apply Continues.blanks
  apply Continues.accept (.closing rfl rfl)
  · exact .done ⟨rfl, rfl⟩ (by simp)
  apply Continues.restart
  intro start _
  apply Continues.bind ((clauseLabel_outlined follow depth).mono (Nat.le_succ limit))
  intro exprs
  apply Continues.bind (statementList_outlined follow depth)
  intro body
  exact .close (fun _ => ⟨rfl, rfl⟩) (fun _ => rfl) (by simp)

theorem clauses_outlined :
    Outlined tail (limit + 1) 1 (clauses rules) (clauses rules') (Shows clauseOutlines) := by
  have shown (clauses : List CaseClause) :
      clauses.flatMap (fun clause => [clause.outline]) = clauseOutlines clauses := by
    rw [clauseOutlines_eq, List.map_eq_flatMap]
  apply Outlined.of_continues
  intro depth first
  apply Continues.symbol (.opening rfl rfl)
  have clauses := collect_draws (clauseTurn_draws follow (depth + 1)) follow.bound follow.bound'
  exact .lastConsult rfl (clauses.shown shown) fun _ => ⟨rfl, rfl⟩

theorem switchHeader_outlined :
    Outlined tail (limit + 1) 0 (switchHeader rules) (switchHeader rules')
      (Shows fun (init, guard) => optionalStmtOutlines init ++ optionalStmtOutlines guard) := by
  apply Outlined.of_continues
  intro depth first
  apply Continues.look (nextIs_tracks (by decide))
  intro bare
  cases bare with
  | true => exact .done ⟨rfl, rfl⟩ (by simp)
  | false =>
    apply Continues.look (nextIs_tracks (by decide))
    intro semicolon
    apply Continues.choose (absent_outlined rfl depth)
      (statement_present (simpleStatement_outlined follow false) depth)
    intro stmt
    apply Continues.accepts (symbol_tracks (.plain (by decide)))
    · apply Continues.blanks
      apply Continues.look (nextIs_tracks (by decide))
      intro opened
      cases opened with
      | true => exact .done ⟨rfl, rfl⟩ (by simp)
      | false =>
        apply Continues.bind (simpleStatement_outlined follow false depth)
        intro guard
        exact .done ⟨rfl, rfl⟩ (by simp)
    · exact .done ⟨rfl, rfl⟩ (by simp)

omit follow in
/-- The parts of a guard that are left in the switch. -/
theorem switchOf_outline {init guard : Option Stmt} {clauses : List CaseClause}
    {build : Span → Stmt} (made : switchOf init guard clauses = some build) :
    ∃ parts, Frames Stmt.outline build
        (optionalStmtOutlines init ++ parts ++ clauseOutlines clauses)
      ∧ parts.Sublist ((optionalStmtOutlines guard).flatMap Outline.parts) := by
  unfold switchOf at made
  split at made
  · cases made
    exact ⟨[], fun _ => by simp, List.nil_sublist _⟩
  · next expr =>
    refine ⟨[expr.outline], ?_, by simp⟩
    split at made
    · cases made
      exact fun _ => by simp
    · cases made
      exact fun _ => by simp
  · next target expr =>
    split at made
    · cases made
      cases target with
      | ident name =>
        exact ⟨[name.outline, expr.outline], fun _ => by simp,
          by simp⟩
      | _ =>
        exact ⟨[expr.outline], fun _ => by simp,
          by simp⟩
    · cases made
  · cases made

theorem switch_outlined :
    Outlined tail (limit + 1) 1 (switch rules) (switch rules') (Frames Stmt.outline) := by
  apply Outlined.of_continues
  intro depth first
  apply Continues.blanks
  apply Continues.bind (switchHeader_outlined follow depth)
  rintro ⟨init, guard⟩
  apply Continues.bind (context_draws "switch body" (clauses_outlined follow depth))
  intro clauses
  dsimp only
  split
  · next build made =>
    obtain ⟨parts, frames, part⟩ := switchOf_outline made
    have opened : ∀ stop, Drawn first (optionalStmtOutlines init ++ optionalStmtOutlines guard
          ++ clauseOutlines clauses) stop →
        Drawn first (optionalStmtOutlines init
          ++ (optionalStmtOutlines guard).flatMap Outline.parts ++ clauseOutlines clauses) stop := by
      intro stop drawn
      cases guard with
      | none => simpa using drawn
      | some guard =>
        have node : Drawn first
            (optionalStmtOutlines init ++ guard.outline :: clauseOutlines clauses) stop := by
          simpa using drawn
        simpa using node.unfold
    apply Continues.redraw opened
    exact .pure ⟨rfl, rfl⟩ frames (((List.Sublist.refl _).append part).append (List.Sublist.refl _))
  · exact .haltSaying _

/-! ### Statements -/

theorem returnStatement_outlined :
    Outlined tail (limit + 1) 0 (returnStatement rules) (returnStatement rules')
      (Frames Stmt.outline) := by
  apply Outlined.of_continues
  intro depth first
  apply Continues.skip (lineBlanks_balanced depth)
  apply Continues.here
  intro place _ _
  rw [atLineEnd_followedBy follow.newLine]
  split
  · exact .pure ⟨rfl, rfl⟩ (fun _ => rfl) (by simp)
  · apply Continues.bind (expressionListWith_outlined follow true depth)
    intro results
    exact .pure ⟨rfl, rfl⟩ (fun _ => rfl) (by simp)

omit follow in
theorem branchLabel_outlined (newLine : NewLine tail) (kind : BranchKind) :
    Outlined tail limit 0 (branchLabel kind) (branchLabel kind)
      (Shows fun label => label.toList.map Ident.outline) := by
  have named : Outlined tail limit 0 (some <$> identifier) (some <$> identifier)
      (Shows fun label => label.toList.map Ident.outline) :=
    present_outlined (by simp) identifier_outlined
  apply Outlined.of_continues
  intro depth first
  apply Continues.here
  intro afterWord led drawn
  apply Continues.skip (lineBlanks_balanced depth)
  apply Continues.here
  intro place _ _
  rw [atLineEnd_followedBy newLine]
  split
  · apply Continues.resume led drawn
    exact .done ⟨rfl, rfl⟩ (by simp)
  · exact .last (named depth) fun _ => ⟨rfl, rfl⟩

omit follow in
theorem branchIn_outlined (newLine : NewLine tail) {words : List (String × BranchKind)}
    (unmarked : ∀ entry ∈ words, entry.1.toList ≠ []
      ∧ ∀ character ∈ entry.1.toList, character ∉ marks) :
    Outlined tail limit 1 (branchIn words) (branchIn words) (Frames Stmt.outline) := by
  induction words with
  | nil => exact .of_continues fun _ _ => .failSaying _
  | cons entry others ih =>
    obtain ⟨word, kind⟩ := entry
    apply Outlined.of_continues
    intro depth first
    apply Continues.accepts (keyword_balanced (unmarked _ (List.mem_cons_self ..)) depth)
    · apply Continues.bind (branchLabel_outlined newLine kind depth)
      intro label
      exact .pure ⟨rfl, rfl⟩ (fun _ => rfl) (by simp)
    · exact .last (ih (fun entry member => unmarked entry (.tail _ member)) depth)
        fun _ => ⟨rfl, rfl⟩

omit follow in
/-- A statement behind the word that tells its kind. -/
theorem Parser.Continues.spelled {parser parser' : Parser (Span → Stmt)}
    (outlined : Outlined tail limit least parser parser' (Frames Stmt.outline)) :
    Continues tail limit first (closes (depth + 1)) first 1 (closes (depth + 1)) []
      (some <$> parser) (some <$> parser') whenSome (fun _ => closes (depth + 1))
      (WhenPresent (Frames Stmt.outline)) := by
  refine .last (map_draws (outlined depth) fun _ _ framed => framed) fun found => ⟨?_, rfl⟩
  cases found <;> simp

theorem keywordStatement_draws (depth : Nat) :
    Draws tail (limit + 1) (closes (depth + 1)) (keywordStatement rules) (keywordStatement rules')
      whenSome (fun _ => closes (depth + 1)) (WhenPresent (Frames Stmt.outline)) := by
  have called (label : String) := context_draws label (binaryExpr_outlined follow true 1 depth)
  apply Draws.of_continues
  intro first
  apply Continues.accepts (keyword_balanced (by decide) depth)
  · exact .spelled (returnStatement_outlined follow)
  apply Continues.accepts (keyword_balanced (by decide) depth)
  · apply Continues.bind (called _)
    intro call
    exact .pure ⟨rfl, rfl⟩ (fun _ => rfl) (by simp)
  apply Continues.accepts (keyword_balanced (by decide) depth)
  · apply Continues.bind (called _)
    intro call
    exact .pure ⟨rfl, rfl⟩ (fun _ => rfl) (by simp)
  apply Continues.accepts (keyword_balanced (by decide) depth)
  · exact .spelled fun depth => context_draws "for statement" (loop_outlined follow depth)
  apply Continues.accepts (keyword_balanced (by decide) depth)
  · exact .spelled fun depth => context_draws "switch statement" (switch_outlined follow depth)
  apply Continues.look (sees_tracks (orElse_tracks (keyword_balanced (by decide) depth)
    (orElse_tracks (keyword_balanced (by decide) depth) (keyword_balanced (by decide) depth))))
  intro declares
  cases declares with
  | true =>
    apply Continues.bind (declaration_outlined follow depth)
    intro decl
    exact .pure ⟨rfl, rfl⟩ (fun _ => rfl) (by simp)
  | false =>
    exact .last (part_draws (.inl rfl) (branchIn_outlined follow.newLine (by decide) depth))
      fun found => by cases found <;> exact ⟨rfl, rfl⟩

theorem statement_outlined :
    Outlined tail (limit + 1) 1 (statement rules) (statement rules')
      (Shows fun stmt => [stmt.outline]) := by
  apply Outlined.of_start
  intro depth first start
  apply Continues.look (sees_tracks (keyword_balanced (by decide) depth))
  intro branches
  cases branches with
  | true =>
    exact .last (context_draws "if statement" (conditional_outlined follow depth))
      fun _ => ⟨rfl, rfl⟩
  | false =>
    apply Continues.call (keywordStatement_draws follow depth)
    intro found nodes shown
    cases found with
    | some build =>
      exact .close (fun _ => ⟨rfl, rfl⟩) (fun span => by rw [shown]) (List.Sublist.refl nodes)
    | none =>
      cases shown
      apply Continues.look (nextIs_tracks (by decide))
      intro opened
      cases opened with
      | true =>
        apply Continues.bind (block_outlined follow depth)
        intro body
        exact .done ⟨rfl, rfl⟩ (by simp)
      | false => exact .last (simpleStatement_outlined follow true depth) fun _ => ⟨rfl, rfl⟩

/-! ### Whole files -/

theorem receiverList_outlined :
    Outlined tail (limit + 1) 1 (receiverList rules) (receiverList rules')
      (Shows fieldOutlines) := by
  apply Outlined.of_continues
  intro depth first
  apply Continues.symbol (.opening rfl rfl)
  apply Continues.consult rfl (fieldEntries_outlined follow (depth + 1))
  intro entries
  apply Continues.symbol (.closing rfl rfl)
  exact .done ⟨rfl, rfl⟩ (by simp)

omit follow in
theorem getLast?_outlines (fields : List Field) :
    (fields.getLast?.toList.map Field.outline).Sublist (fieldOutlines fields) := by
  rw [fieldOutlines_eq]
  apply List.Sublist.map
  cases found : fields.getLast? with
  | none => exact List.nil_sublist _
  | some last => exact List.singleton_sublist.mpr (List.mem_of_getLast? found)

theorem funcDecl_outlined :
    Outlined tail (limit + 1) 1 (funcDecl rules) (funcDecl rules')
      (Shows fun func => [func.outline]) := by
  have bodied : Outlined tail (limit + 1) 0 (some <$> context "function body" (block rules))
      (some <$> context "function body" (block rules'))
      (Shows fun body => body.toList.map Block.outline) :=
    present_outlined (by simp) fun depth => context_draws _ (block_outlined follow depth)
  apply Outlined.of_start
  intro depth first start
  apply Continues.skip (keyword_balanced (by decide) depth)
  apply Continues.call (optional_outlined (receiverList_outlined follow) depth)
  intro receivers nodes shown
  have receiver : ((receivers.bind List.getLast?).toList.map Field.outline).Sublist nodes := by
    cases receivers with
    | none => exact List.nil_sublist _
    | some fields =>
      cases shown
      exact getLast?_outlines fields
  apply Continues.bind (context_draws "function name" (identifier_outlined depth))
  intro name
  apply Continues.bind (context_draws "function signature" (signature_outlined follow depth))
  intro signature
  apply Continues.skip (lineBlanks_balanced depth)
  apply Continues.look (nextIs_tracks (by decide))
  intro opened
  apply Continues.choose (bodied depth) (absent_outlined rfl depth)
  intro body
  have framed (span : Span) :
      [FuncDecl.outline ⟨receivers.bind List.getLast?, name, signature, body, span⟩]
        = [.node span none ((receivers.bind List.getLast?).toList.map Field.outline
            ++ [name.outline, signature.outline] ++ body.toList.map Block.outline)] := rfl
  exact .close (fun _ => ⟨rfl, rfl⟩) framed (by simpa using receiver)

theorem topLevelDecl_outlined :
    Outlined tail (limit + 1) 1 (topLevelDecl rules) (topLevelDecl rules')
      (Shows TopLevel.outlines) :=
  fun depth => orElse_draws (map_draws (funcDecl_outlined follow depth) fun _ _ shown => shown)
    (map_draws (declaration_outlined follow depth) fun _ _ shown => shown)

omit follow in
theorem dotRename_outlined :
    Outlined tail limit 1 dotRename dotRename (Shows fun name => [name.outline]) := by
  apply Outlined.of_continues
  intro depth first
  apply Continues.blanks
  apply Continues.restartAt
  intro start short led
  constructor
  · apply TracksFrom.bind (tag_tracks (.plain (by decide))) led (by omega)
    intro _ rest led
    exact .pure led (by omega) rfl
  · intro name rest parsed
    obtain ⟨_, stop, dot, finished⟩ := bind_eq_done.mp parsed
    obtain ⟨rfl, rfl⟩ := pure_eq_done.mp finished
    unfold tag move at dot
    split at dot
    · next found =>
      cases dot
      have text : start.rest = ['.'] ++ stop.rest := Cursor.text_of_after? found
      obtain ⟨characters, _, same, offset⟩ := Cursor.reaches_of_after? found
      have dot : characters = ['.'] := (List.append_cancel_right (text.symm.trans same)).symm
      subst dot
      have drawn := Drawn.word (by simp) text offset
      rw [offset] at drawn
      exact ⟨_, rfl, drawn⟩
    · cases dot

omit follow in
theorem importSpec_outlined :
    Outlined tail limit 1 importSpec importSpec (Shows fun spec => [spec.outline]) := by
  apply Outlined.of_start
  intro depth first start
  apply Continues.call (optional_outlined (fun depth =>
    orElse_draws (identifier_outlined depth) (dotRename_outlined depth)) depth)
  intro rename nodes shown
  have renamed : (rename.toList.map Ident.outline).Sublist nodes := by
    cases rename with
    | none => exact List.nil_sublist _
    | some name =>
      cases shown
      exact List.Sublist.refl _
  have framed (path : String) (span : Span) : [ImportSpec.outline ⟨rename, path, span⟩]
      = [.node span none (rename.toList.map Ident.outline)] := rfl
  apply Continues.bind (context_draws "import path" (stringLiteral_outlined depth))
  intro path
  have part : (rename.toList.map Ident.outline).Sublist ([] ++ nodes ++ [path.outline]) :=
    renamed.trans (by simp)
  cases path with
  | literal _ _ text => exact .close (fun _ => ⟨rfl, rfl⟩) (framed (unquote text)) part
  | _ => exact .close (fun _ => ⟨rfl, rfl⟩) (framed "") part

theorem importDecl_outlined :
    Outlined tail (limit + 1) 1 (importDecl rules) (importDecl rules')
      (Shows fun specs => specs.map ImportSpec.outline) := by
  apply Outlined.of_continues
  intro depth first
  apply Continues.skip (keyword_balanced (by decide) depth)
  apply Continues.finish (grouped_outlined follow importSpec_outlined depth)
    (Nat.le_add_right _ _) fun _ => ⟨rfl, rfl⟩
  rintro specs _ rfl
  exact List.map_eq_flatMap.symm

theorem importTurn_draws (depth : Nat) :
    Draws tail limit (closes (depth + 1)) (importTurn rules) (importTurn rules') Turn.least
      (Turn.gauge (closes (depth + 1)) (closes (depth + 1)))
      (Shows (Turn.outlines fun specs => specs.map ImportSpec.outline)) := by
  apply Draws.of_continues
  intro first
  apply Continues.here
  intro before led drawn
  apply Continues.blanks
  apply Continues.look (sees_tracks (keyword_balanced (by decide) depth))
  intro imported
  cases imported with
  | true =>
    apply Continues.bind (context_draws "import declaration"
      ((importDecl_outlined follow depth).mono (Nat.le_succ limit)))
    intro specs
    apply Continues.skip (statementEnd_balanced depth)
    exact .done ⟨rfl, rfl⟩ (by simp)
  | false =>
    apply Continues.resume led drawn
    exact .done ⟨rfl, rfl⟩ (by simp)

theorem imports_outlined :
    Outlined tail limit 0 (imports rules) (imports rules')
      (Shows fun specs => specs.map ImportSpec.outline) := by
  apply Outlined.of_continues
  intro depth first
  apply Continues.bind (collect_draws (importTurn_draws follow depth) follow.bound follow.bound')
  intro groups
  exact .done ⟨rfl, rfl⟩ (by simp [List.map_flatten, List.flatMap_def])

theorem topLevelTurn_draws (depth : Nat) :
    Draws tail limit (closes (depth + 1)) (topLevelTurn rules) (topLevelTurn rules') Turn.least
      (Turn.gauge (closes (depth + 1)) (closes (depth + 1)))
      (Shows (Turn.outlines TopLevel.outlines)) := by
  apply Draws.of_continues
  intro first
  apply Continues.blanks
  apply Continues.here
  intro place led _
  apply Continues.agree
  · intro enclosed
    exact Cursor.atEnd_followedBy (closes_nil depth) (enclosed.of_leads led)
  · exact .done ⟨rfl, rfl⟩ (by simp)
  · apply Continues.bind ((topLevelDecl_outlined follow depth).mono (Nat.le_succ limit))
    intro decl
    apply Continues.skip (statementEnd_balanced depth)
    exact .done ⟨rfl, rfl⟩ (by simp)

theorem topLevelDecls_outlined :
    Outlined tail limit 0 (topLevelDecls rules) (topLevelDecls rules')
      (Shows fun decls => decls.flatMap TopLevel.outlines) :=
  fun depth => collect_draws (topLevelTurn_draws follow depth) follow.bound follow.bound'

theorem sourceFile_outlined (name : String) :
    Outlined tail (limit + 1) 1 (sourceFile rules name) (sourceFile rules' name)
      (Shows fun file => [file.outline]) := by
  apply Outlined.of_start
  intro depth first start
  apply Continues.skip (context_tracks "package clause" (keyword_balanced (by decide) depth))
  apply Continues.bind (identifier_outlined depth)
  intro package
  apply Continues.skip (statementEnd_balanced depth)
  apply Continues.consult rfl (imports_outlined follow depth)
  intro imports
  apply Continues.consult rfl (topLevelDecls_outlined follow depth)
  intro decls
  have framed (span : Span) : [SyntaxFile.outline ⟨name, package, imports, decls, span⟩]
      = [.node span none (package.outline :: (imports.map ImportSpec.outline
          ++ decls.flatMap TopLevel.outlines))] := rfl
  exact .close (fun _ => ⟨rfl, rfl⟩) framed (by simp)

/-- Rules for one level more read texts of one character more. -/
theorem Rules.Follow.deepen : rules.deepen.Follow tail (limit + 1) rules'.deepen where
  newLine := follow.newLine
  bound := Nat.succ_le_succ follow.bound
  bound' := Nat.succ_le_succ follow.bound'
  typeHere := typeHere_outlined follow
  binary := binaryExpr_outlined follow
  unary := unaryExpr_outlined follow
  element := literalElement_outlined follow
  block := block_outlined follow
  statement := statement_outlined follow
  conditional := conditional_outlined follow

end Productions

/-! ### Levels of nesting -/

theorem outlined_zero {parser parser' : Parser α} {shows : α → List Outline → Prop} :
    Outlined tail 0 least parser parser' shows :=
  fun _ => ⟨fun _ short => absurd short (Nat.not_lt_zero _),
    fun _ _ _ short => absurd short (Nat.not_lt_zero _)⟩

/-- Rules that are deep enough for a text track each other, whatever their depth. -/
theorem Rules.follow_ofDepth (newLine : NewLine tail) (limit : Nat) :
    ∀ {depth depth' : Nat}, limit ≤ depth → limit ≤ depth' →
      (Rules.ofDepth depth).Follow tail limit (Rules.ofDepth depth') := by
  induction limit with
  | zero =>
    intro depth depth' _ _
    exact ⟨newLine, Nat.zero_le _, Nat.zero_le _, outlined_zero, fun _ _ => outlined_zero,
      fun _ => outlined_zero, outlined_zero, outlined_zero, outlined_zero, outlined_zero⟩
  | succ limit ih =>
    intro depth depth' enough enough'
    obtain ⟨depth, rfl⟩ : ∃ fewer, depth = fewer + 1 := ⟨depth - 1, by omega⟩
    obtain ⟨depth', rfl⟩ : ∃ fewer, depth' = fewer + 1 := ⟨depth' - 1, by omega⟩
    exact (ih (Nat.le_of_succ_le_succ enough) (Nat.le_of_succ_le_succ enough')).deepen

/-- A file that is read in full is drawn in its text. -/
theorem parseFile_drawn {name text : String} {file : SyntaxFile}
    (parsed : parseFile name text = .ok file) :
    ∃ rest, Drawn (Cursor.ofText text) [file.outline] rest := by
  unfold parseFile at parsed
  dsimp only at parsed
  split at parsed
  · next rest reached =>
    cases parsed
    have follow := Rules.follow_ofDepth newLine_nil (Cursor.ofText text).rest.length
      (Nat.le_add_right _ 2) (Nat.le_add_right _ 2)
    obtain ⟨_, rfl, drawn⟩ :=
      (sourceFile_outlined follow name 0).draws _ _ _ (Nat.lt_succ_self _) reached
    exact ⟨rest, drawn⟩
  · cases parsed
  · cases parsed

/-- All ranges of a parsed file are faithful to its text: they are ranges of the text, each
construct covers its parts, the parts stand one behind the other, and names and literals
stand where their ranges say. -/
theorem parseFile_faithful {name text : String} {file : SyntaxFile}
    (parsed : parseFile name text = .ok file) : file.outline.Faithful text := by
  obtain ⟨rest, drawn⟩ := parseFile_drawn parsed
  exact (drawn.row (.refl _)).faithful _ (by simp)

/-- Two parameters share a type, and the range of a sum is merged from its operands. -/
theorem sum_faithful :
    ∃ file, parseFile "a.go"
        "package p\nfunc f(a, é T) \x7b\n\treturn a + \"é\" // sum\n\x7d\n" = .ok file
      ∧ file.span = ⟨0, 54⟩
      ∧ file.outline.Faithful "package p\nfunc f(a, é T) \x7b\n\treturn a + \"é\" // sum\n\x7d\n" := by
  have read : (parseFile "a.go"
      "package p\nfunc f(a, é T) \x7b\n\treturn a + \"é\" // sum\n\x7d\n").toOption.map
        SyntaxFile.span = some ⟨0, 54⟩ := by
    decide +kernel
  cases parsed : parseFile "a.go"
      "package p\nfunc f(a, é T) \x7b\n\treturn a + \"é\" // sum\n\x7d\n" with
  | ok file =>
    rw [parsed] at read
    exact ⟨file, rfl, Option.some.inj read, parseFile_faithful parsed⟩
  | error error =>
    rw [parsed] at read
    cases read

end Unclosed.Grammar
