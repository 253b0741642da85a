import Unclosed.Proofs.LastingTypes

/-!
What an expression starts with.  The runs of the parsers of operands, of operations
and of operators are taken apart into the parts that they read, and the first
characters of an expression are told from them.
-/

namespace Unclosed.Grammar

open Grammar.Parser

/-! ### Runs taken apart -/

inductive OperandRead (rules : Rules) (start : Cursor) : Expr → Cursor → Prop where
  | paren {opened closed rest : Cursor} {inner : Expr} (span : Span)
      (opens : start.after? "(" = some opened)
      (reads : rules.expression opened = .done inner closed)
      (closes : symbol ")" closed = .done () rest) :
      OperandRead rules start (.paren span inner) rest
  | function {expr : Expr} {rest : Cursor} (starts : (keyword "func" start).isDone = true)
      (reads : functionLiteral rules start = .done expr rest) : OperandRead rules start expr rest
  | type {type : TypeExpr} {rest : Cursor} (starts : seesTypeLiteral start = .done true start)
      (reads : typeHere rules start = .done type rest) : OperandRead rules start (.type type) rest
  | literal {expr : Expr} {rest : Cursor} (reads : basicLiteral start = .done expr rest) :
      OperandRead rules start expr rest
  | name {name : Ident} {rest : Cursor} (reads : identifier start = .done name rest) :
      OperandRead rules start (.ident name) rest

inductive UnaryRead (rules : Rules) (literals : Bool) (start : Cursor) : Expr → Cursor → Prop where
  | receive {place rest : Cursor} {operand : Expr} (span : Span)
      (arrow : start.after? "<-" = some place) (other : (keyword "chan" place).isDone = false)
      (reads : rules.unary literals place = .done operand rest) :
      UnaryRead rules literals start (.unary span .recv operand) rest
  | star {place rest : Cursor} {operand : Expr} (span : Span)
      (spelled : start.after? "*" = some place)
      (reads : rules.unary literals place = .done operand rest) :
      UnaryRead rules literals start (.star span operand) rest
  | sign {op : UnaryOp} {place rest : Cursor} {operand : Expr} (span : Span)
      (signed : signOperator? start = some op)
      (reads : rules.unary literals place = .done operand rest) :
      UnaryRead rules literals start (.unary span op operand) rest
  | bare {expr : Expr} {rest : Cursor}
      (reads : postfixExpr rules literals start = .done expr rest) :
      UnaryRead rules literals start expr rest

inductive OperationRead (rules : Rules) (expr : Expr) :
    Cursor → (Span → Expr) → Cursor → Prop where
  | select {offset : Nat} {more : List Char} {build : Span → Expr} {rest : Cursor}
      (single : ∀ others, more ≠ '.' :: others)
      (reads : selection rules expr ⟨offset + 1, more⟩ = .done build rest) :
      OperationRead rules expr ⟨offset, '.' :: more⟩ build rest
  | call {offset : Nat} {more : List Char} {build : Span → Expr} {rest : Cursor}
      {arguments : List (Expr × Bool)}
      (reads : argumentList rules ⟨offset + 1, more⟩ = .done arguments rest) :
      OperationRead rules expr ⟨offset, '(' :: more⟩ build rest
  | index {offset : Nat} {more : List Char} {build : Span → Expr} {rest : Cursor}
      (reads : indexOrSlice rules expr ⟨offset + 1, more⟩ = .done build rest) :
      OperationRead rules expr ⟨offset, '[' :: more⟩ build rest
  | fill {offset : Nat} {more : List Char} {build : Span → Expr} {rest : Cursor} :
      OperationRead rules expr ⟨offset, '\x7b' :: more⟩ build rest

section Runs

variable {α : Type} {rules : Rules} {start rest : Cursor} {literals : Bool} {expr : Expr}

theorem expectingExpression_eq_done {place : Cursor} {parser : Parser α} {value : α} :
    expectingExpression place parser start = .done value rest
      ↔ parser start = .done value rest := by
  unfold expectingExpression
  cases parser start <;> simp

def typeWords : List String := ["map", "struct", "chan", "interface"]

def opensTypeLiteral (start : Cursor) : Bool :=
  start.startsWith "[" || typeWords.any (fun word => (keyword word start).isDone)
    || start.startsWith "<-"

theorem seesTypeLiteral_apply (start : Cursor) :
    seesTypeLiteral start = .done (opensTypeLiteral start) start := by
  have either {answer other : Bool} {parser : Parser Bool}
      (later : parser start = .done other start) :
      (if answer = true then pure true else parser) start = .done (answer || other) start := by
    cases answer with
    | true => rfl
    | false => exact later
  simp only [opensTypeLiteral, typeWords, List.any_cons, List.any_nil, Bool.or_false,
    Bool.or_assoc]
  exact either (either (either (either (either rfl))))

theorem OperandRead.of_operand (parsed : operand rules start = .done expr rest) :
    OperandRead rules (Blank.skip start) expr rest := by
  change (accept "(" >>= fun opened => if opened = true then _ else _) (Blank.skip start) = _
    at parsed
  rw [accept_bind_apply] at parsed
  cases opens : (Blank.skip start).after? "(" with
  | some opened =>
    rw [opens] at parsed
    obtain ⟨inner, closed, reads, later⟩ := bind_eq_done.mp parsed
    obtain ⟨_, place, closes, later⟩ := bind_eq_done.mp later
    cases later
    exact .paren _ opens reads closes
  | none =>
    rw [opens] at parsed
    change (if (keyword "func" (Blank.skip start)).isDone = true then functionLiteral rules
      else _) (Blank.skip start) = _ at parsed
    cases starts : (keyword "func" (Blank.skip start)).isDone with
    | true =>
      rw [starts] at parsed
      exact .function starts parsed
    | false =>
      rw [starts] at parsed
      obtain ⟨literal, place, looked, parsed⟩ := bind_eq_done.mp parsed
      cases (seesTypeLiteral_apply _).symm.trans looked
      cases literal : opensTypeLiteral (Blank.skip start) with
      | true =>
        rw [literal] at looked parsed
        obtain ⟨type, middle, reads, given⟩ := bind_eq_done.mp parsed
        cases given
        exact .type looked reads
      | false =>
        rw [literal] at parsed
        rcases orElse_eq_done.mp (expectingExpression_eq_done.mp parsed) with reads | ⟨_, reads⟩
        · exact .literal reads
        · obtain ⟨name, named, rfl⟩ := map_eq_done.mp reads
          exact .name named

/-- A receiving arrow is one that no channel type follows. -/
theorem seesReceive_done (start : Cursor) :
    ∃ answer, seesReceive start = .done answer start ∧ (answer = true →
      ∃ place, start.after? "<-" = some place ∧ (keyword "chan" place).isDone = false) := by
  unfold seesReceive
  cases arrow : start.after? "<-" with
  | none => exact ⟨false, rfl, by simp⟩
  | some place =>
    refine ⟨!(keyword "chan" place).isDone, rfl, ?_⟩
    intro receives
    exact ⟨place, rfl, by simpa using receives⟩

theorem UnaryRead.of_unaryExpr
    (parsed : unaryExpr rules literals start = .done expr rest) :
    UnaryRead rules literals (Blank.skip start) expr rest := by
  have operated {place : Cursor} {build : Span → Expr → Expr}
      (read : operatorOperand rules literals (Blank.skip start) build place = .done expr rest) :
      ∃ span operand, rules.unary literals place = .done operand rest
        ∧ expr = build span operand := by
    obtain ⟨operand, middle, reads, given⟩ := bind_eq_done.mp read
    cases given
    exact ⟨_, operand, reads, rfl⟩
  change (seesReceive >>= fun receives => if receives = true then _ else _) (Blank.skip start) = _
    at parsed
  obtain ⟨answer, looked, receives⟩ := seesReceive_done (Blank.skip start)
  rw [bind_apply, looked] at parsed
  cases answer with
  | true =>
    obtain ⟨place, arrow, other⟩ := receives rfl
    obtain ⟨_, middle, spelled, later⟩ := bind_eq_done.mp parsed
    rw [tag_eq_done, arrow] at spelled
    cases spelled
    obtain ⟨span, operand, reads, rfl⟩ := operated later
    exact .receive span arrow other reads
  | false =>
    dsimp only at parsed
    rw [if_neg (by simp), accept_bind_apply] at parsed
    cases spelled : (Blank.skip start).after? "*" with
    | some place =>
      rw [spelled] at parsed
      obtain ⟨span, operand, reads, rfl⟩ := operated parsed
      exact .star span spelled reads
    | none =>
      rw [spelled] at parsed
      dsimp only at parsed
      cases signed : signOperator? (Blank.skip start) with
      | none =>
        rw [if_neg (by simp), signed] at parsed
        exact .bare parsed
      | some op =>
        rw [if_neg (by simp), signed] at parsed
        obtain ⟨_, place, _, later⟩ := bind_eq_done.mp parsed
        obtain ⟨span, operand, reads, rfl⟩ := operated later
        exact .sign span signed reads

theorem OperationRead.of_operation {found : Option (Span → Expr)}
    (parsed : operation rules literals expr start = .done found rest) :
    (found = none ∧ rest = start)
      ∨ ∃ build, found = some build
        ∧ OperationRead rules expr (Blank.skipInLine start) build rest := by
  have absent (nothing : (resume start >>= fun _ => pure none : Parser (Option (Span → Expr)))
      (Blank.skipInLine start) = .done found rest) : found = none ∧ rest = start := by
    cases nothing
    exact ⟨rfl, rfl⟩
  obtain ⟨_, _, before, parsed⟩ := bind_eq_done.mp parsed
  cases before
  obtain ⟨_, _, blank, parsed⟩ := bind_eq_done.mp parsed
  cases blank
  obtain ⟨_, _, after, parsed⟩ := bind_eq_done.mp parsed
  cases after
  revert parsed absent
  generalize Blank.skipInLine start = place
  obtain ⟨offset, characters⟩ := place
  intro absent parsed
  dsimp only at parsed
  split at parsed
  · exact .inl (absent parsed)
  · next more single =>
    obtain ⟨_, middle, spelled, later⟩ := bind_eq_done.mp parsed
    cases spelled
    obtain ⟨build, reads, rfl⟩ := map_eq_done.mp later
    exact .inr ⟨build, rfl, .select (fun others => single others) reads⟩
  · obtain ⟨_, middle, spelled, later⟩ := bind_eq_done.mp parsed
    cases spelled
    obtain ⟨arguments, place, reads, given⟩ := bind_eq_done.mp later
    cases given
    exact .inr ⟨_, rfl, .call (context_eq_done.mp reads)⟩
  · obtain ⟨_, middle, spelled, later⟩ := bind_eq_done.mp parsed
    cases spelled
    obtain ⟨build, reads, rfl⟩ := map_eq_done.mp later
    exact .inr ⟨build, rfl, .index reads⟩
  · split at parsed
    · obtain ⟨elements, place, reads, given⟩ := bind_eq_done.mp parsed
      cases given
      exact .inr ⟨_, rfl, .fill⟩
    · exact .inl (absent parsed)
  · exact .inl (absent parsed)

theorem operatorStep_cases {least : Nat} {left : Expr} {found : Option Expr}
    (parsed : operatorStep rules literals least left start = .done found rest) :
    (found = none ∧ rest = start)
      ∨ ∃ op place right span, binaryOperator? start = some (op, place)
        ∧ rules.binary literals (op.precedence + 1) place = .done right rest
        ∧ found = some (.binary span op left right) := by
  obtain ⟨_, _, before, parsed⟩ := bind_eq_done.mp parsed
  cases before
  cases operator : binaryOperator? start with
  | none =>
    rw [operator] at parsed
    cases parsed
    exact .inl ⟨rfl, rfl⟩
  | some entry =>
    obtain ⟨op, place⟩ := entry
    rw [operator] at parsed
    dsimp only at parsed
    split at parsed
    · cases parsed
      exact .inl ⟨rfl, rfl⟩
    · obtain ⟨right, middle, reads, given⟩ := bind_eq_done.mp (show
        (rules.binary literals (op.precedence + 1) >>= fun right => _) place = _ from parsed)
      cases given
      exact .inr ⟨op, place, right, _, rfl, reads, rfl⟩

end Runs

/-! ### The first characters of an operand -/

def operandSigns : List Char := ['+', '-', '!', '^', '&', '*', '(', '[', '<', '"', '`', '\'']

def opensOperand : List Char → Bool
  | [] => false
  | '.' :: more => more.head?.any isDecimalDigit
  | next :: _ => isIdentChar next || operandSigns.contains next

theorem solid_of_opensOperand {characters : List Char} (opens : opensOperand characters = true) :
    Blank.solid characters = true := by
  revert opens
  fun_cases opensOperand characters with
  | case1 => simp
  | case2 more => exact fun _ => Blank.solid_cons more (by decide)
  | case3 next more point =>
    intro opens
    rcases Bool.or_eq_true_iff.mp opens with letter | sign
    · exact solid_of_identChar letter more
    · have visible : ∀ sign ∈ operandSigns, (sign != '/' && !Blank.isSpace sign) = true := by
        decide
      exact Blank.solid_cons more (visible next (by simpa using sign))

section Starts

variable {rules : Rules} {start rest : Cursor} {literals : Bool} {expr : Expr}

theorem opensOperand_of_after? {word : String} (found : start.after? word = some rest)
    (opens : ∀ more, opensOperand (word.toList ++ more) = true) :
    opensOperand start.rest = true := by
  rw [Cursor.text_of_after? found]
  exact opens rest.rest

theorem opensOperand_of_startsWith {word : String} (starts : start.startsWith word = true)
    (opens : ∀ more, opensOperand (word.toList ++ more) = true) :
    opensOperand start.rest = true := by
  obtain ⟨place, found⟩ := Option.isSome_iff_exists.mp starts
  exact opensOperand_of_after? found opens

theorem opensOperand_of_keyword {word : String} (found : (keyword word start).isDone = true)
    (opens : ∀ more, opensOperand (word.toList ++ more) = true) :
    opensOperand (Blank.skip start).rest = true := by
  obtain ⟨_, place, parsed⟩ := Reply.exists_of_isDone found
  exact opensOperand_of_after? (after?_of_keyword parsed) opens

/-- A number with a point at its start has a digit behind it. -/
theorem numberLiteral_misses_of_point {offset : Nat} {more : List Char}
    (noDigit : more.head?.any isDecimalDigit = false) :
    numberLiteral.Misses ⟨offset, '.' :: more⟩ := by
  have zero : (tag "0").Misses ⟨offset, '.' :: more⟩ := tag_misses rfl
  have digit : (satisfy isDecimalDigit).Misses ⟨offset, '.' :: more⟩ := ⟨_, rfl⟩
  have point : Misses (do tag "."; takeWhile1 isDecimalDigit) ⟨offset, '.' :: more⟩ := by
    refine ⟨.silent ⟨offset + 1, more⟩, ?_⟩
    have missed :
        satisfy isDecimalDigit ⟨offset + 1, more⟩ = .miss (.silent ⟨offset + 1, more⟩) := by
      cases more with
      | nil => rfl
      | cons next more =>
        have noDigit : ¬ isDecimalDigit next = true := by simpa using noDigit
        rw [satisfy, move, Cursor.afterChar?, if_neg noDigit]
    change (satisfy isDecimalDigit >>= fun _ => takeWhile isDecimalDigit) ⟨offset + 1, more⟩ = _
    rw [bind_apply, missed]
  exact (zero.bind.orElse (digit.bind.orElse point).bind).recognize.bind

theorem opensOperand_of_basicLiteral (settled : Blank.skip start = start)
    (parsed : basicLiteral start = .done expr rest) : opensOperand start.rest = true := by
  obtain ⟨next, more, text, member⟩ :=
    head_of_startsAmong (literalSigns_of_basicLiteral settled parsed)
  rw [text]
  by_cases point : next = '.'
  · subst point
    cases digit : more.head?.any isDecimalDigit with
    | true => exact digit
    | false =>
      obtain ⟨offset, characters⟩ := start
      cases text
      have unquoted : stringLiteral.Misses ⟨offset, '.' :: more⟩ := by
        apply stringLiteral_misses
        rw [settled]
        rfl
      have misses := unquoted.orElse
        ((runeLiteral_misses rfl).orElse (numberLiteral_misses_of_point digit))
      exact absurd parsed misses.not_done
  · have others : ∀ sign ∈ literalSigns, sign ≠ '.' →
        (isIdentChar sign || operandSigns.contains sign) = true := by decide
    rw [opensOperand]
    · exact others next member point
    · exact point

theorem OperandRead.opens (settled : Blank.skip start = start)
    (read : OperandRead rules start expr rest) : opensOperand start.rest = true := by
  cases read with
  | paren span opens reads closes => exact opensOperand_of_after? opens fun _ => rfl
  | function starts reads =>
    have opens := opensOperand_of_keyword starts fun _ => rfl
    rwa [settled] at opens
  | type starts reads =>
    rw [seesTypeLiteral_apply] at starts
    have opens : opensTypeLiteral start = true := (Reply.done.inj starts).1
    simp only [opensTypeLiteral, Bool.or_eq_true, List.any_eq_true] at opens
    rcases opens with (sign | ⟨word, member, found⟩) | sign
    · exact opensOperand_of_startsWith sign fun _ => rfl
    · simp only [typeWords, List.mem_cons, List.not_mem_nil, or_false] at member
      rw [← settled]
      rcases member with rfl | rfl | rfl | rfl <;>
        exact opensOperand_of_keyword found fun _ => rfl
    · exact opensOperand_of_startsWith sign fun _ => rfl
  | literal reads => exact opensOperand_of_basicLiteral settled reads
  | name reads =>
    obtain ⟨next, more, text, letter⟩ := identStart_of_isName (name_of_identifier reads)
    rw [settled] at text
    have letter := identChar_of_identStart letter
    rw [text, opensOperand, letter]
    · rfl
    · rintro rfl
      cases letter

theorem UnaryRead.opens (settled : Blank.skip start = start)
    (read : UnaryRead rules literals start expr rest) : opensOperand start.rest = true := by
  cases read with
  | receive span arrow other reads => exact opensOperand_of_after? arrow fun _ => rfl
  | star span spelled reads => exact opensOperand_of_after? spelled fun _ => rfl
  | sign span signed reads =>
    obtain ⟨next, sign, more, text⟩ := starts_of_signOperator? signed
    have opens : ∀ next ∈ signs, next ≠ '.' ∧ operandSigns.contains next = true := by decide
    rw [text, opensOperand, (opens next sign).2, Bool.or_true]
    exact (opens next sign).1
  | bare reads =>
    obtain ⟨operand, middle, first, _⟩ := bind_eq_done.mp (show
      (operand rules >>= fun first => _) start = _ from reads)
    have read := OperandRead.of_operand first
    rw [settled] at read
    exact read.opens settled

theorem opensOperand_of_unaryExpr
    (parsed : unaryExpr rules literals start = .done expr rest) :
    opensOperand (Blank.skip start).rest = true :=
  (UnaryRead.of_unaryExpr parsed).opens (Blank.skip_skip start)

theorem opensOperand_of_binaryExpr {least : Nat}
    (parsed : binaryExpr rules literals least start = .done expr rest) :
    opensOperand (Blank.skip start).rest = true := by
  obtain ⟨first, middle, read, _⟩ := bind_eq_done.mp parsed
  exact opensOperand_of_unaryExpr read

theorem binaryExpr_skip (rules : Rules) (literals : Bool) (least : Nat) (start : Cursor) :
    binaryExpr rules literals least (Blank.skip start) = binaryExpr rules literals least start := by
  have first : unaryExpr rules literals (Blank.skip start) = unaryExpr rules literals start := by
    change (here >>= fun start => _) (Blank.skip (Blank.skip start)) = _
    rw [Blank.skip_skip]
    rfl
  rw [binaryExpr, bind_apply, first, bind_apply]

end Starts

end Unclosed.Grammar
