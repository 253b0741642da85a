import Unclosed.Proofs.FieldEnds

/-!
Faults in the bodies of range loops.  A loop that only ranges over a value reports the
fault of its body.  A loop that assigns to targets is tried as a range loop and, where its
body fails, read once more as a plain loop; that fails already at the word `range`, so that
nothing is told of the body.
-/

namespace Unclosed.Grammar

open Grammar.Parser

variable {halts : Bool} {fault : Fault} {parser : Parser Unit} {middle : Cursor}
  {targets : List Expr}

def Reply.failure? {α : Type} : Reply α → Option (Bool × Fault)
  | .done _ _ => none
  | .miss fault => some (false, fault)
  | .halt fault => some (true, fault)

def Reply.stop? {α : Type} : Reply α → Option Cursor
  | .done _ stop => some stop
  | _ => none

theorem Reply.exists_of_stop? {α : Type} {reply : Reply α} {stop : Cursor}
    (found : reply.stop? = some stop) : ∃ value, reply = .done value stop := by
  cases reply with
  | done value rest =>
    cases found
    exact ⟨value, rfl⟩
  | miss fault => cases found
  | halt fault => cases found

/-- The header of a range loop from behind `for` up to the body.  If it assigns to targets,
`sign` is the place behind the sign that does. -/
inductive RangeHeader (rules : Rules) (start : Cursor) : Option Cursor → Cursor → Prop where
  | bare {word body : Cursor} {expr : Expr} (range : keyword "range" start = .done () word)
      (reads : headerExpression rules word = .done expr body) :
      RangeHeader rules start none body
  | assigning {middle sign word body : Cursor} {targets : List Expr} {expr : Expr}
      (lists : expressionListWith rules false start = .done targets middle)
      (assigns : (Blank.skipInLine middle).after? ":=" = some sign
        ∨ (Blank.skipInLine middle).after? "=" = some sign)
      (range : keyword "range" sign = .done () word)
      (reads : headerExpression rules word = .done expr body) :
      RangeHeader rules start (some sign) body

section Failures

variable {α β : Type} {start middle : Cursor}

theorem failure?_bind {parser : Parser α} {next : α → Parser β}
    (fails : (parser start).failure? = some (halts, fault)) :
    ((parser >>= next) start).failure? = some (halts, fault) := by
  rw [bind_apply]
  cases reply : parser start with
  | done value rest =>
    rw [reply] at fails
    cases fails
  | miss _ | halt _ =>
    rw [reply] at fails
    exact fails

theorem failure?_context {parser : Parser α} {label : String}
    (fails : (parser start).failure? = some (halts, fault)) :
    (context label parser start).failure? = some (halts, fault.within start label) := by
  unfold context
  cases reply : parser start with
  | done value rest =>
    rw [reply] at fails
    cases fails
  | miss _ | halt _ =>
    rw [reply] at fails
    cases fails
    rfl

theorem isDone_of_failure? {reply : Reply α} (fails : reply.failure? = some (halts, fault)) :
    reply.isDone = false := by
  cases reply with
  | done value rest => cases fails
  | miss _ => rfl
  | halt _ => rfl

theorem accepts_of_done {next : Bool → Parser β} (parsed : parser start = .done () middle) :
    (accepts parser >>= next) start = next true middle := by
  rw [accepts_bind, bind_of_done (probe_of_done parsed), Option.isSome_some]

theorem accepts_of_not_done {next : Bool → Parser β} (missing : (parser start).isDone = false) :
    (accepts parser >>= next) start = next false start := by
  rw [accepts_bind, bind_of_done (probe_of_not_done missing), Option.isSome_none]

end Failures

/-! ### Keywords -/

section Keywords

variable {rules : Rules} {start rest : Cursor} {word : String}

section

variable (parsed : keyword word start = .done () rest)
include parsed

theorem letters_of_keyword (letters : ∀ letter ∈ word.toList, isIdentChar letter = true) :
    (Blank.skip start).rest.takeWhile isIdentChar = word.toList :=
  Decidable.byContradiction fun apart => (keyword_misses apart letters).not_done parsed

theorem other_keyword {other : String} (letters : ∀ letter ∈ word.toList, isIdentChar letter = true)
    (otherLetters : ∀ letter ∈ other.toList, isIdentChar letter = true) (differs : word ≠ other) :
    (keyword other start).isDone = false := by
  have spelled := letters_of_keyword parsed letters
  have apart : (Blank.skip start).rest.takeWhile isIdentChar ≠ other.toList := by
    rw [spelled]
    exact fun same => differs (String.toList_inj.mp same)
  obtain ⟨fault, missed⟩ := keyword_misses apart otherLetters
  rw [missed]
  rfl

theorem head_of_keyword (some : word.toList ≠ []) :
    (Blank.skip start).rest.head? = word.toList.head? := by
  rw [Cursor.text_of_after? (after?_of_keyword parsed)]
  cases letters : word.toList with
  | nil => exact absurd letters some
  | cons first others => rfl

end

theorem operand_of_range (settled : Blank.skip start = start)
    (range : keyword "range" start = .done () rest) :
    operand rules start = .miss (.saying "expected expression" start) := by
  have others {other : String} (letters : ∀ letter ∈ other.toList, isIdentChar letter = true)
      (differs : "range" ≠ other) : (keyword other start).isDone = false :=
    other_keyword range (by decide) letters differs
  have unnamed : identifier.Misses start := by
    apply identifier_misses
    rw [letters_of_keyword range (by decide)]
    decide
  have head : start.rest.head? = some 'r' := by
    have head := head_of_keyword range (by decide)
    rwa [settled] at head
  have signless {sign : String}
      (differs : (sign.toList.head?.any fun first => some 'r' != some first) = true) :
      start.after? sign = none :=
    after?_eq_none (by rw [head]; exact differs)
  have typeless : seesTypeLiteral start = .done false start := by
    rw [seesTypeLiteral_apply]
    simp [opensTypeLiteral, typeWords, Cursor.startsWith,
      @signless "[" (by decide), @signless "<-" (by decide),
      @others "map" (by decide) (by decide), @others "struct" (by decide) (by decide),
      @others "chan" (by decide) (by decide), @others "interface" (by decide) (by decide)]
  change (accept "(" >>= fun opened => if opened = true then _ else _) (Blank.skip start) = _
  rw [settled, accept_bind_apply, signless (by decide)]
  change (if (keyword "func" start).isDone = true then functionLiteral rules else _) start = _
  rw [others (by decide) (by decide), if_neg (by simp)]
  change (seesTypeLiteral >>= fun literal => if literal = true then _ else _) start = _
  rw [bind_of_done typeless, if_neg (by simp)]
  have named : Misses (Expr.ident <$> identifier) start := unnamed.bind
  have literal : startsAmong literalSigns start.rest = false := by
    rw [startsAmong, head]
    rfl
  obtain ⟨fault, missed⟩ := (basicLiteral_misses settled literal).orElse named
  rw [expectingExpression, missed]

theorem expressionListWith_of_range (literals : Bool)
    (range : keyword "range" start = .done () rest) :
    expressionListWith rules literals start
      = .miss (.saying "expected expression" (Blank.skip start)) := by
  have head : (Blank.skip start).rest.head? = some 'r' := head_of_keyword range (by decide)
  have signless {sign : String}
      (differs : (sign.toList.head?.any fun first => some 'r' != some first) = true) :
      (Blank.skip start).after? sign = none :=
    after?_eq_none (by rw [head]; exact differs)
  have receives : seesReceive (Blank.skip start) = .done false (Blank.skip start) := by
    rw [seesReceive, signless (by decide)]
  have unsigned : signOperator? (Blank.skip start) = none := by
    unfold signOperator?
    split <;> simp_all
  rw [← keyword_skip] at range
  have unary : unaryExpr rules literals start =
      .miss (.saying "expected expression" (Blank.skip start)) := by
    change (seesReceive >>= fun receives => if receives = true then _ else _) (Blank.skip start) = _
    rw [bind_of_done receives, if_neg (by simp), accept_bind_apply, signless (by decide)]
    dsimp only
    rw [if_neg (by simp), unsigned]
    change (operand rules >>= fun first => _) (Blank.skip start) = _
    rw [bind_apply, operand_of_range (Blank.skip_skip start) range]
  have single : expressionWith rules literals start =
      .miss (.saying "expected expression" (Blank.skip start)) := by
    change (unaryExpr rules literals >>= fun first => _) start = _
    rw [bind_apply, unary]
  change (expressionWith rules literals >>= fun first => _) start = _
  rw [bind_apply, single]

theorem expressionListWith_skip (literals : Bool) (start : Cursor) :
    expressionListWith rules literals (Blank.skip start) =
      expressionListWith rules literals start := by
  change (expressionWith rules literals >>= fun first => _) _ = _
  rw [bind_apply, expressionWith, binaryExpr_skip]
  rfl

theorem opensOperand_of_expressionListWith {literals : Bool} {exprs : List Expr}
    (lists : expressionListWith rules literals start = .done exprs rest) :
    opensOperand (Blank.skip start).rest = true := by
  obtain ⟨first, middle, reads, _⟩ := bind_eq_done.mp lists
  exact opensOperand_of_binaryExpr reads

theorem startsWith_of_opensOperand (opens : opensOperand start.rest = true) (sign : String)
    (other : ∀ more, opensOperand (sign.toList ++ more) = false) :
    start.startsWith sign = false := by
  cases found : start.after? sign with
  | none => rw [Cursor.startsWith, found]; rfl
  | some rest =>
    rw [Cursor.text_of_after? found, other] at opens
    cases opens

end Keywords

/-! ### Loops -/

section Loops

variable {rules : Rules} {start word sign body : Cursor} {halts : Bool} {fault : Fault}

theorem failure?_statement (spelled : keyword "for" start = .done () word)
    (fails : (loop rules word).failure? = some (halts, fault)) :
    (statement rules start).failure? = some (halts, fault.within word "for statement") := by
  rw [← keyword_skip] at spelled
  have others {other : String} (letters : ∀ letter ∈ other.toList, isIdentChar letter = true)
      (differs : "for" ≠ other) : (keyword other (Blank.skip start)).isDone = false :=
    other_keyword spelled (by decide) letters differs
  change ((if (keyword "if" (Blank.skip start)).isDone = true then
    context "if statement" (conditional rules) else _) (Blank.skip start)).failure? = _
  rw [others (by decide) (by decide), if_neg (by simp)]
  apply failure?_bind
  unfold keywordStatement
  rw [accepts_of_not_done (others (by decide) (by decide)), if_neg (by simp),
    accepts_of_not_done (others (by decide) (by decide)), if_neg (by simp),
    accepts_of_not_done (others (by decide) (by decide)), if_neg (by simp),
    accepts_of_done spelled, if_pos rfl]
  exact failure?_bind (failure?_context fails)

/-- The fault of the body ends the loop. -/
theorem failure?_loop_of_bare (header : RangeHeader rules start none body)
    (fails : (block rules body).failure? = some (halts, fault)) :
    (loop rules start).failure? = some (halts, fault) := by
  cases header with
  | bare range reads =>
    have brace : (Blank.skip start).startsWith "\x7b" = false := by
      rw [Cursor.startsWith, after?_eq_none (by rw [head_of_keyword range (by decide)]; decide)]
      rfl
    rw [← keyword_skip] at range
    change ((if (Blank.skip start).startsWith "\x7b" = true then _
      else accepts (keyword "range") >>= fun found => if found = true then _ else _)
        (Blank.skip start)).failure? = _
    rw [brace, if_neg (by simp), accepts_of_done range, if_pos rfl, bind_of_done reads]
    exact failure?_bind fails

/-- The sign that assigns to the targets is read as the one of an assignment. -/
theorem assignOperator?_of_range (range : keyword "range" sign = .done () word)
    (assigns : middle.after? ":=" = some sign ∨ middle.after? "=" = some sign) :
    ∃ op, assignOperator? middle = some (op, sign) := by
  rcases assigns with define | assign
  · refine ⟨.define, ?_⟩
    rw [assignOperator?, AssignOp.spellings, assignOperatorIn, define]
    rfl
  · refine ⟨.assign, ?_⟩
    have single : sign.startsWith "=" = false := by
      cases twice : sign.after? "=" with
      | none =>
        rw [Cursor.startsWith, twice]
        rfl
      | some rest =>
        -- A second sign would stand in the place of the word.
        have head := head_of_keyword range (by decide)
        rw [Blank.skip_of_solid (solid_of_after? twice (by decide)),
          Cursor.text_of_after? twice] at head
        cases head
    have text := Cursor.text_of_after? assign
    have others {spelling : String}
        (differs : (spelling.toList.head?.any fun first => some '=' != some first) = true) :
        middle.after? spelling = none :=
      after?_eq_none (by rw [text]; exact differs)
    simp [assignOperator?, AssignOp.spellings, assignOperatorIn, assign, single,
      @others ":=" (by decide), @others "<<=" (by decide), @others ">>=" (by decide),
      @others "&^=" (by decide), @others "+=" (by decide), @others "-=" (by decide),
      @others "*=" (by decide), @others "/=" (by decide), @others "%=" (by decide),
      @others "&=" (by decide), @others "|=" (by decide), @others "^=" (by decide)]

/-- The fault that is reported for a loop with targets: the word `range` where a value should
stand. -/
def rangeFault (sign : Cursor) : Fault :=
  (Fault.saying "expected expression" (Blank.skip sign)).within sign "assignment"

theorem simpleStatement_of_range
    (lists : expressionListWith rules false start = .done targets middle)
    (assigns : (Blank.skipInLine middle).after? ":=" = some sign
      ∨ (Blank.skipInLine middle).after? "=" = some sign)
    (range : keyword "range" sign = .done () word) :
    (simpleStatement rules false start).failure? = some (false, rangeFault sign) := by
  obtain ⟨op, found⟩ := assignOperator?_of_range range assigns
  rw [← expressionListWith_skip] at lists
  change ((expressionListWith rules false >>= fun targets => here >>= fun afterTargets =>
    lineBlanks >>= fun _ => here >>= fun place => _) (Blank.skip start)).failure? = _
  have blank : lineBlanks middle = .done () (Blank.skipInLine middle) := rfl
  have place (cursor : Cursor) : here cursor = .done cursor cursor := rfl
  rw [bind_of_done lists, bind_of_done (place _), bind_of_done blank, bind_of_done (place _), found]
  change ((context "assignment" (expressionListWith rules false) >>= fun values => _)
    sign).failure? = _
  apply failure?_bind
  apply failure?_context
  rw [expressionListWith_of_range false range]
  rfl

/-- A loop with targets whose body fails is read as an assignment, whose value is missing. -/
theorem failure?_loop_of_assigning (header : RangeHeader rules start (some sign) body)
    (fails : (block rules body).failure? = some (halts, fault)) :
    (loop rules start).failure? = some (false, rangeFault sign) := by
  cases header with
  | @assigning middle _ word _ targets expr lists assigns range reads =>
    have opens := opensOperand_of_expressionListWith lists
    have brace := startsWith_of_opensOperand opens "\x7b" fun _ => rfl
    have semicolon := startsWith_of_opensOperand opens ";" fun _ => rfl
    rw [← expressionListWith_skip] at lists
    have plain := simpleStatement_of_range lists assigns range
    have noRange : (keyword "range" (Blank.skip start)).isDone = false := by
      rw [Bool.eq_false_iff]
      intro starts
      obtain ⟨⟨⟩, place, spelled⟩ := Reply.exists_of_isDone starts
      rw [expressionListWith_of_range false spelled] at lists
      cases lists
    have clause : (rangeClause rules (Blank.skip start)).failure? = some (halts, fault) := by
      unfold rangeClause
      rw [bind_of_done lists]
      have behindSign (define : Bool) : ((keyword "range" >>= fun _ =>
          headerExpression rules >>= fun expr => block rules >>= fun body =>
            (pure fun span => Stmt.range span targets[0]? targets[1]? define expr body :
              Parser (Span → Stmt))) sign).failure? = some (halts, fault) := by
        rw [bind_of_done range, bind_of_done reads]
        exact failure?_bind fails
      rcases assigns with define | assign
      · have spelled : lineSymbol ":=" middle = .done () sign := tag_eq_done.mpr define
        rw [accepts_of_done spelled]
        exact behindSign true
      · have missing : (lineSymbol ":=" middle).isDone = false := by
          have misses : (tag ":=").Misses (Blank.skipInLine middle) :=
            tag_misses (after?_eq_none (by rw [Cursor.text_of_after? assign]; rfl))
          obtain ⟨_, missed⟩ := misses
          change (tag ":=" (Blank.skipInLine middle)).isDone = false
          rw [missed]
          rfl
        have spelled : lineSymbol "=" middle = .done () sign := tag_eq_done.mpr assign
        rw [accepts_of_not_done missing]
        change ((lineSymbol "=" >>= fun _ => _) middle).failure? = _
        rw [bind_of_done spelled]
        exact behindSign false
    change ((if (Blank.skip start).startsWith "\x7b" = true then _
      else accepts (keyword "range") >>= fun found => if found = true then _ else _)
        (Blank.skip start)).failure? = _
    rw [brace, if_neg (by simp), accepts_of_not_done noRange, if_neg (by simp),
      bind_of_done (probe_of_not_done (isDone_of_failure? clause))]
    have noSemicolon : nextIs ";" (Blank.skip start) = .done false (Blank.skip start) := by
      rw [nextIs, semicolon]
    change ((nextIs ";" >>= fun found => _) (Blank.skip start)).failure? = _
    rw [bind_of_done noSemicolon]
    exact failure?_bind (failure?_bind plain)

end Loops

/-! ### Places -/

section Places

variable {rules : Rules} (solves : rules.Solves) {start word sign body : Cursor} {halts : Bool}
  {fault : Fault}

include solves

variable (short : start.rest.length < rules.bound)
include short

theorem block_fault_within (fails : (block rules start).failure? = some (halts, fault)) :
    fault.Within start := by
  have follow := solves.follow (Nat.le_refl rules.bound)
  have same : block (Rules.ofDepth rules.bound) start = block rules start :=
    (Production.block.reads follow).same start short
  have settled := ((block_outlined follow 0).tracks start (by omega)).settled
  rw [same] at settled
  cases reply : block rules start with
  | done value rest =>
    rw [reply] at fails
    cases fails
  | miss found | halt found =>
    rw [reply] at fails settled
    cases fails
    exact settled

omit short in
/-- The fault of a body does not stand before its brace. -/
theorem brace_le_fault (short : body.rest.length < rules.bound)
    (fails : (block rules body).failure? = some (halts, fault)) :
    (Blank.skip body).offset ≤ fault.position.offset := by
  have skipped : block rules (Blank.skip body) = block rules body := by
    change (here >>= fun start => _) (Blank.skip (Blank.skip body)) = _
    rw [Blank.skip_skip]
    rfl
  rw [← skipped] at fails
  have within := block_fault_within solves (Blank.length_skip_lt short) fails
  exact within.reaches.offset_le

theorem reaches_of_range (range : keyword "range" start = .done () word) {expr : Expr}
    (reads : headerExpression rules word = .done expr body) :
    (Blank.skip start).Reaches 6 body := by
  have toWord : (Blank.skip start).Reaches 5 word :=
    Cursor.reaches_of_after? (after?_of_keyword range)
  have fits : word.rest.length < rules.bound := by
    have := toWord.length_le
    have := Blank.length_skip_lt short
    omega
  exact toWord.trans (solves.reaches (.expressionWith false) fits reads)

theorem reaches_sign (lists : expressionListWith rules false start = .done targets middle)
    (assigns : (Blank.skipInLine middle).after? ":=" = some sign
      ∨ (Blank.skipInLine middle).after? "=" = some sign) : start.Reaches 0 sign := by
  have toMiddle := solves.reaches (.expressionListWith false) short lists
  have toSign : (Blank.skipInLine middle).Reaches 0 sign := by
    rcases assigns with define | assign
    · exact (Cursor.reaches_of_after? define).mono (Nat.zero_le _)
    · exact (Cursor.reaches_of_after? assign).mono (Nat.zero_le _)
  exact ((toMiddle.trans (Blank.reaches_skipInLine middle)).trans toSign).mono (Nat.zero_le _)

end Places

/-- If the body of a range loop fails, a loop without targets fails with the fault of the body,
which does not stand before the brace.  A loop with targets always misses at its word `range`,
which stands before the brace, whatever the fault of the body is. -/
theorem range_body_failure {rules : Rules} (solves : rules.Solves) {start word body : Cursor}
    {sign : Option Cursor} (short : start.rest.length < rules.bound)
    (spelled : keyword "for" start = .done () word) (header : RangeHeader rules word sign body)
    {halts : Bool} {fault : Fault} (fails : (block rules body).failure? = some (halts, fault)) :
    (Blank.skip body).offset ≤ fault.position.offset ∧
      match sign with
      | none => (statement rules start).failure? = some (halts, fault.within word "for statement")
      | some place =>
        (statement rules start).failure? =
            some (false, (rangeFault place).within word "for statement")
          ∧ (rangeFault place).position.offset < (Blank.skip body).offset := by
  have fits : word.rest.length < rules.bound := by
    have := (solves.reaches (.keyword "for") short spelled).length_le
    omega
  have reported : ∀ {halts' : Bool} {fault' : Fault},
      (loop rules word).failure? = some (halts', fault') →
      (statement rules start).failure? = some (halts', fault'.within word "for statement") :=
    failure?_statement spelled
  cases header with
  | bare range reads =>
    have toBody := reaches_of_range solves fits range reads
    have inBody : body.rest.length < rules.bound := by
      have := toBody.length_le
      have := Blank.length_skip_lt fits
      omega
    exact ⟨brace_le_fault solves inBody fails,
      reported (failure?_loop_of_bare (.bare range reads) fails)⟩
  | @assigning _ place _ _ _ _ lists assigns range reads =>
    have shorter : place.rest.length < rules.bound := by
      have := (reaches_sign solves fits lists assigns).length_le
      omega
    have toBody := reaches_of_range solves shorter range reads
    have inBody : body.rest.length < rules.bound := by
      have := toBody.length_le
      have := Blank.length_skip_lt shorter
      omega
    refine ⟨brace_le_fault solves inBody fails,
      reported (failure?_loop_of_assigning (.assigning lists assigns range reads) fails), ?_⟩
    have := (toBody.trans (Blank.reaches_skip body)).offset_le
    change (Blank.skip place).offset < _
    omega

/-- A missing operand in the body of a loop without targets. -/
theorem bare_body_failure :
    let start := Cursor.ofText "for range x \x7b ) \x7d"
    let fault : Fault := ⟨⟨14, ") \x7d".toList⟩, some "expected expression", []⟩
    (block (.forText start) ⟨11, " \x7b ) \x7d".toList⟩).failure? = some (false, fault)
      ∧ (statement (.forText start) start).failure? =
          some (false, fault.within ⟨3, " range x \x7b ) \x7d".toList⟩ "for statement") := by
  intro start fault
  have fails : (block (.forText start) ⟨11, " \x7b ) \x7d".toList⟩).failure? =
      some (false, fault) := by
    decide +kernel
  obtain ⟨⟨⟩, spelled⟩ : ∃ value, keyword "for" start =
      .done value ⟨3, " range x \x7b ) \x7d".toList⟩ :=
    Reply.exists_of_stop? (by decide +kernel)
  obtain ⟨⟨⟩, range⟩ : ∃ value, keyword "range" ⟨3, " range x \x7b ) \x7d".toList⟩ =
      .done value ⟨9, " x \x7b ) \x7d".toList⟩ :=
    Reply.exists_of_stop? (by decide +kernel)
  obtain ⟨expr, reads⟩ : ∃ value, headerExpression (.forText start)
      ⟨9, " x \x7b ) \x7d".toList⟩ = .done value ⟨11, " \x7b ) \x7d".toList⟩ :=
    Reply.exists_of_stop? (by decide +kernel)
  have short : start.rest.length < (Rules.forText start).bound := by
    rw [Rules.forText, Rules.bound_ofDepth]
    omega
  exact ⟨fails, (range_body_failure (Rules.solves_ofDepth _) short spelled (.bare range reads)
    fails).2⟩

/-- The same fault in the body of a loop with a target is not reported; the statement misses at
the word `range`. -/
theorem target_hides_body_failure :
    let start := Cursor.ofText "for k := range x \x7b ) \x7d"
    (block (.forText start) ⟨16, " \x7b ) \x7d".toList⟩).failure? =
        some (false, ⟨⟨19, ") \x7d".toList⟩, some "expected expression", []⟩)
      ∧ (statement (.forText start) start).failure? =
          some (false, ⟨⟨9, "range x \x7b ) \x7d".toList⟩, some "expected expression",
            [(8, "assignment"), (3, "for statement")]⟩) := by
  decide +kernel

end Unclosed.Grammar
