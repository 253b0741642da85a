import Unclosed.Proofs.LastingExpressions

/-!
Operators between names.  An expression of names and binary operators is read to
its end, and the result is the one tree of its operators in which every operator
takes what binds at least as tightly on its left and what binds more tightly on
its right.
-/

namespace Unclosed

variable {op : BinaryOp} {later : List (BinaryOp × String)}

/-! ### Trees of operators -/

inductive OperatorTree where
  | name (text : String)
  | node (op : BinaryOp) (left right : OperatorTree)
deriving DecidableEq, Repr

inductive OperatorToken where
  | name (text : String)
  | operator (op : BinaryOp)
deriving DecidableEq, Repr

def BinaryOp.spelling (op : BinaryOp) : String :=
  ((BinaryOp.spellings.find? (·.2 = op)).map Prod.fst).getD ""

def OperatorToken.text : OperatorToken → String
  | name text => text
  | operator op => op.spelling

/-- The five levels of the language's binary operators, the loosest first. -/
def BinaryOp.levels : List (List String) :=
  [["||"], ["&&"], ["==", "!=", "<", "<=", ">", ">="], ["+", "-", "|", "^"],
   ["*", "/", "%", "<<", ">>", "&", "&^"]]

def BinaryOp.level (op : BinaryOp) : Nat := levels.findIdx (·.contains op.spelling) + 1

theorem BinaryOp.level_eq_precedence (op : BinaryOp) : op.level = op.precedence := by
  cases op <;> decide +kernel

namespace OperatorTree

def inOrder : OperatorTree → List OperatorToken
  | name text => [.name text]
  | node op left right => inOrder left ++ .operator op :: inOrder right

/-- How tightly the root binds; a name binds tighter than every operator. -/
def strength : OperatorTree → Nat
  | name _ => 6
  | node op _ _ => op.level

/-- Every operator's left side binds at least as tightly as the operator, and its
right side more tightly. -/
def Grouped : OperatorTree → Prop
  | name _ => True
  | node op left right =>
    left.Grouped ∧ right.Grouped ∧ op.level ≤ left.strength ∧ op.level < right.strength

def ofExpr? : Expr → Option OperatorTree
  | .ident ident => some (.name ident.name)
  | .binary _ op left right => do
    return .node op (← ofExpr? left) (← ofExpr? right)
  | _ => none

/-- No operator of a grouped tree binds less tightly than the root. -/
theorem Grouped.strength_le {tree : OperatorTree} (grouped : tree.Grouped)
    (member : .operator op ∈ tree.inOrder) : tree.strength ≤ op.level := by
  induction tree with
  | name text => simp [inOrder] at member
  | node root left right leftHypothesis rightHypothesis =>
    obtain ⟨groupedLeft, groupedRight, atLeast, more⟩ := grouped
    rcases List.mem_append.mp member with inLeft | member
    · exact Nat.le_trans atLeast (leftHypothesis groupedLeft inLeft)
    · rcases List.mem_cons.mp member with same | inRight
      · cases same
        exact Nat.le_refl _
      · exact Nat.le_trans (Nat.le_of_lt more) (rightHypothesis groupedRight inRight)

theorem inOrder_length_pos (tree : OperatorTree) : 0 < tree.inOrder.length := by
  cases tree with
  | name text => simp [inOrder]
  | node op left right =>
    simp only [inOrder, List.length_append, List.length_cons]
    omega

/-- Of two grouped nodes with the same tokens, neither root stands left of the other. -/
theorem Grouped.no_earlier_root {other : BinaryOp} {left right left' right' : OperatorTree}
    (grouped : (node op left right).Grouped) (grouped' : (node other left' right').Grouped)
    {between : List OperatorToken} (longer : left'.inOrder = left.inOrder ++ between)
    (same : .operator op :: right.inOrder = between ++ .operator other :: right'.inOrder) :
    between = [] := by
  cases between with
  | nil => rfl
  | cons token later =>
    obtain ⟨rfl, rest⟩ := List.cons.inj same
    have inLeft : .operator op ∈ left'.inOrder := by simp [longer]
    have inRight : .operator other ∈ right.inOrder := by simp [rest]
    have low := grouped'.1.strength_le inLeft
    have high := grouped.2.1.strength_le inRight
    have atLeast : other.level ≤ left'.strength := grouped'.2.2.1
    have more : op.level < right.strength := grouped.2.2.2
    omega

theorem inOrder_name_ne_node (text : String) (op : BinaryOp) (left right : OperatorTree) :
    (name text).inOrder ≠ (node op left right).inOrder := by
  intro same
  have := left.inOrder_length_pos
  have lengths := congrArg List.length same
  simp only [inOrder, List.length_append, List.length_cons, List.length_nil] at lengths
  omega

/-- A grouped tree is determined by its tokens. -/
theorem Grouped.eq_of_inOrder_eq {first second : OperatorTree} (grouped : first.Grouped)
    (grouped' : second.Grouped) (same : first.inOrder = second.inOrder) : first = second := by
  induction first generalizing second with
  | name text =>
    cases second with
    | name other => simpa [inOrder] using same
    | node op left right => exact absurd same (inOrder_name_ne_node text op left right)
  | node op left right leftHypothesis rightHypothesis =>
    cases second with
    | name text => exact absurd same.symm (inOrder_name_ne_node text op left right)
    | node other left' right' =>
      have aligned : left.inOrder = left'.inOrder ∧
          OperatorToken.operator op :: right.inOrder = .operator other :: right'.inOrder := by
        rcases List.append_eq_append_iff.mp same with ⟨between, longer, rest⟩ | ⟨between, longer, rest⟩
        · cases grouped.no_earlier_root grouped' longer rest
          exact ⟨by simpa using longer.symm, rest⟩
        · cases grouped'.no_earlier_root grouped longer rest
          exact ⟨by simpa using longer, rest.symm⟩
      obtain ⟨sameOp, sameRight⟩ := List.cons.inj aligned.2
      cases sameOp
      rw [leftHypothesis grouped.1 grouped'.1 aligned.1,
        rightHypothesis grouped.2.1 grouped'.2.1 sameRight]

end OperatorTree

namespace Grammar

open Grammar.Parser

variable {rest : Cursor}

/-! ### The text of operators and names -/

def isIdentifier (text : String) : Bool := isName text.toList && text.toList.all isIdentChar

def tailTokens (tail : List (BinaryOp × String)) : List OperatorToken :=
  tail.flatMap fun entry => [.operator entry.1, .name entry.2]

def tailText : List (BinaryOp × String) → List Char
  | [] => []
  | (op, name) :: later =>
    ' ' :: (op.spelling.toList ++ ' ' :: (name.toList ++ tailText later))

theorem tailText_length_le (tail : List (BinaryOp × String)) :
    tail.length ≤ (tailText tail).length := by
  induction tail with
  | nil => exact Nat.le_refl 0
  | cons entry later ih =>
    simp only [tailText, List.length_cons, List.length_append]
    omega

theorem tailText_append (first second : List (BinaryOp × String)) :
    tailText (first ++ second) = tailText first ++ tailText second := by
  induction first with
  | nil => rfl
  | cons entry later ih => simp [tailText, ih]

theorem toList_intercalate_tokens (first : String) (tail : List (BinaryOp × String)) :
    (" ".intercalate ((OperatorToken.name first :: tailTokens tail).map OperatorToken.text)).toList =
      first.toList ++ tailText tail := by
  rw [String.toList_intercalate]
  induction tail generalizing first with
  | nil => simp [tailTokens, tailText, OperatorToken.text]
  | cons entry later ih =>
    have parts : tailTokens (entry :: later) =
        .operator entry.1 :: (.name entry.2 :: tailTokens later) := rfl
    rw [parts, List.map_cons, List.map_cons, List.map_cons, List.map_cons,
      List.intercalate_cons_cons, List.map_cons, List.map_cons, List.intercalate_cons_cons,
      ← List.map_cons, ← List.map_cons, ih]
    simp [tailText, OperatorToken.text]

theorem takeWhile_name {letters : List Char} (all : letters.all isIdentChar = true)
    (tail : List (BinaryOp × String)) :
    (letters ++ tailText tail).takeWhile isIdentChar = letters ∧
      (letters ++ tailText tail).dropWhile isIdentChar = tailText tail := by
  have stops : (tailText tail).takeWhile isIdentChar = [] ∧
      (tailText tail).dropWhile isIdentChar = tailText tail := by
    cases tail with
    | nil => exact ⟨rfl, rfl⟩
    | cons entry later =>
      have space : ¬ isIdentChar ' ' = true := by decide
      exact ⟨List.takeWhile_cons_of_neg space, List.dropWhile_cons_of_neg space⟩
  rw [List.all_eq_true] at all
  rw [List.takeWhile_append_of_pos all, List.dropWhile_append_of_pos all, stops.1, stops.2,
    List.append_nil]
  exact ⟨rfl, rfl⟩

/-! ### Operators behind a name -/

theorem operation_of_tail (rules : Rules) (literals : Bool) (expr : Expr) (offset : Nat)
    (tail : List (BinaryOp × String)) :
    operation rules literals expr ⟨offset, tailText tail⟩ = .done none ⟨offset, tailText tail⟩ := by
  cases tail with
  | nil => rfl
  | cons entry later =>
    obtain ⟨op, name⟩ := entry
    cases op <;> rfl

theorem binaryOperator?_of_tail (offset : Nat) (op : BinaryOp) (name : String)
    (later : List (BinaryOp × String)) :
    binaryOperator? ⟨offset, tailText ((op, name) :: later)⟩ =
      some (op, ⟨offset + 1 + byteLength op.spelling.toList,
        ' ' :: (name.toList ++ tailText later)⟩) := by
  cases op <;> rfl

/-! ### Names as operands -/

section Names

variable {rules : Rules} {start : Cursor} {offset : Nat} {name : String}
  {tail : List (BinaryOp × String)} (named : isIdentifier name = true)

def identAt (offset : Nat) (name : String) : Ident :=
  ⟨name, ⟨offset, offset + byteLength name.toList⟩⟩

include named

theorem head_of_isIdentifier (tail : List Char) :
    ∃ next more, name.toList ++ tail = next :: more ∧ isIdentStart next = true := by
  rw [isIdentifier, Bool.and_eq_true, isName, Bool.and_eq_true] at named
  cases letters : name.toList with
  | nil =>
    rw [letters] at named
    cases named.1.1
  | cons next more =>
    rw [letters] at named
    exact ⟨next, more ++ tail, rfl, named.1.1⟩

theorem skip_name (offset : Nat) (tail : List (BinaryOp × String)) :
    Blank.skip ⟨offset, name.toList ++ tailText tail⟩ = ⟨offset, name.toList ++ tailText tail⟩ := by
  obtain ⟨next, more, text, letter⟩ := head_of_isIdentifier named (tailText tail)
  apply Blank.skip_of_solid
  rw [text]
  exact solid_of_identChar (identChar_of_identStart letter) more

theorem after?_name (sign : String)
    (noLetter : (sign.toList.head?.any fun first => !isIdentStart first) = true) :
    (⟨offset, name.toList ++ tailText tail⟩ : Cursor).after? sign = none := by
  obtain ⟨next, more, text, letter⟩ := head_of_isIdentifier named (tailText tail)
  apply after?_eq_none
  rw [text]
  cases signs : sign.toList with
  | nil =>
    rw [signs] at noLetter
    cases noLetter
  | cons first others =>
    rw [signs] at noLetter
    simp only [List.head?_cons, Option.any_some, bne_iff_ne, ne_eq, Option.some_inj] at noLetter ⊢
    rintro rfl
    rw [letter] at noLetter
    cases noLetter

theorem sees_keyword_name (word : String) (reserved : isKeyword word = true)
    (letters : ∀ letter ∈ word.toList, isIdentChar letter = true) :
    (keyword word ⟨offset, name.toList ++ tailText tail⟩).isDone = false := by
  have settled := skip_name named offset tail
  rw [isIdentifier, Bool.and_eq_true, isName, Bool.and_eq_true] at named
  have missed : (keyword word).Misses ⟨offset, name.toList ++ tailText tail⟩ := by
    apply keyword_misses _ letters
    rw [settled, (takeWhile_name named.2 tail).1]
    intro same
    rw [← String.toList_inj.mp same] at reserved
    simp [reserved] at named
  obtain ⟨fault, missed⟩ := missed
  rw [missed]
  rfl

theorem seesTypeLiteral_name :
    seesTypeLiteral ⟨offset, name.toList ++ tailText tail⟩ =
      .done false ⟨offset, name.toList ++ tailText tail⟩ := by
  rw [seesTypeLiteral_apply]
  simp [opensTypeLiteral, typeWords, Cursor.startsWith, after?_name named "[" (by decide),
    after?_name named "<-" (by decide), sees_keyword_name named "map" (by decide) (by decide),
    sees_keyword_name named "struct" (by decide) (by decide),
    sees_keyword_name named "chan" (by decide) (by decide),
    sees_keyword_name named "interface" (by decide) (by decide)]

theorem startsAmong_name : startsAmong literalSigns (name.toList ++ tailText tail) = false := by
  obtain ⟨next, more, text, letter⟩ := head_of_isIdentifier named (tailText tail)
  rw [text]
  exact startsAmong_literalSigns_of_letter letter more

theorem signOperator?_name : signOperator? ⟨offset, name.toList ++ tailText tail⟩ = none := by
  obtain ⟨next, more, text, letter⟩ := head_of_isIdentifier named (tailText tail)
  rw [text]
  have noLetter : ∀ sign ∈ ['+', '-', '!', '^', '&'], isIdentStart sign = false := by decide
  fun_cases signOperator? ⟨offset, next :: more⟩ <;> simp_all

variable (place : Blank.skip start = ⟨offset, name.toList ++ tailText tail⟩)
include place

theorem identifier_of_name :
    identifier start = .done (identAt offset name)
      ⟨offset + byteLength name.toList, tailText tail⟩ := by
  obtain ⟨next, more, text, letter⟩ := head_of_isIdentifier named (tailText tail)
  rw [isIdentifier, Bool.and_eq_true, isName, Bool.and_eq_true] at named
  obtain ⟨taken, dropped⟩ := takeWhile_name named.2 tail
  have free : isKeyword name = false := by simpa using named.1.2
  rw [identifier_apply, place, text, bind_apply, name_apply offset more letter, ← text, taken,
    Cursor.skipWhile, skipWhileFrom_eq, taken, dropped, String.ofList_toList]
  dsimp only
  rw [if_neg (by simp [free])]
  rfl

theorem operand_of_name :
    operand rules start = .done (.ident (identAt offset name))
      ⟨offset + byteLength name.toList, tailText tail⟩ := by
  have settled := skip_name named offset tail
  have read := identifier_of_name named settled
  change (accept "(" >>= fun opened => if opened = true then _ else _) (Blank.skip start) = _
  rw [place, accept_bind_apply, after?_name named "(" (by decide)]
  change (if (keyword "func" _).isDone = true then functionLiteral rules else _) _ = _
  rw [sees_keyword_name named "func" (by decide) (by decide)]
  change (seesTypeLiteral >>= fun literal => if literal = true then _ else _) _ = _
  rw [bind_apply, seesTypeLiteral_name named]
  apply expectingExpression_eq_done.mpr
  exact orElse_eq_done.mpr (.inr ⟨basicLiteral_misses settled (startsAmong_name named),
    map_eq_done.mpr ⟨_, read, rfl⟩⟩)

theorem unaryExpr_of_name (literals : Bool) (bounded : 0 < rules.bound) :
    unaryExpr rules literals start = .done (.ident (identAt offset name))
      ⟨offset + byteLength name.toList, tailText tail⟩ := by
  have receives : seesReceive ⟨offset, name.toList ++ tailText tail⟩ =
      .done false ⟨offset, name.toList ++ tailText tail⟩ := by
    rw [seesReceive, after?_name named "<-" (by decide)]
  change (seesReceive >>= fun receives => if receives = true then _ else _) (Blank.skip start) = _
  rw [place, bind_apply, receives]
  dsimp only
  rw [if_neg (by simp), accept_bind_apply, after?_name named "*" (by decide)]
  dsimp only
  rw [if_neg (by simp), signOperator?_name named]
  change (operand rules >>= fun first => iterate _ rules.bound first) _ = _
  rw [bind_apply, operand_of_name named (skip_name named offset tail)]
  dsimp only
  obtain ⟨bound, same⟩ := Nat.exists_eq_succ_of_ne_zero (Nat.ne_of_gt bounded)
  rw [same, iterate, bind_apply, operationStep, bind_apply, operation_of_tail]
  rfl

end Names

/-! ### Climbing -/

theorem precedence_lt (op : BinaryOp) : op.precedence < 6 := by
  cases op <;> decide

theorem precedence_pos (op : BinaryOp) : 0 < op.precedence := by
  cases op <;> decide

/-- The reply to reading operators that bind at least as tightly as `least` behind
a tree: a grouped tree of a first part of them, up to an operator that binds less
tightly. -/
def Climbs (least : Nat) (left : OperatorTree) (tail : List (BinaryOp × String))
    (reply : Reply Expr) : Prop :=
  ∃ expr tree used rest offset,
    reply = .done expr ⟨offset, tailText rest⟩ ∧
    OperatorTree.ofExpr? expr = some tree ∧
    tail = used ++ rest ∧ tree.inOrder = left.inOrder ++ tailTokens used ∧
    tree.Grouped ∧ least ≤ tree.strength ∧ ∀ entry ∈ rest.head?, entry.1.precedence < least

section Climbing

variable {rules : Rules} (solves : rules.Solves) (literals : Bool)
  {tail : List (BinaryOp × String)} {least offset : Nat} {left : Expr} {tree : OperatorTree}

/-- Nothing more is taken where no operator follows that binds tightly enough. -/
theorem climbs_here (isTree : OperatorTree.ofExpr? left = some tree) (grouped : tree.Grouped)
    (atLeast : least ≤ tree.strength)
    (stops : ∀ entry ∈ tail.head?, entry.1.precedence < least) :
    Climbs least tree tail (.done left ⟨offset, tailText tail⟩) :=
  ⟨left, tree, [], tail, offset, rfl, isTree, rfl, by simp [tailTokens], grouped, atLeast, stops⟩

theorem operatorStep_of_operator {place : Cursor}
    (found : binaryOperator? place = some (op, rest)) :
    operatorStep rules literals least left place =
      if op.precedence < least then .done none place
      else (rules.binary literals (op.precedence + 1) >>= fun right =>
        pure (some (.binary (left.span.merge right.span) op left right))) rest := by
  rw [operatorStep, bind_apply]
  simp only [here, found]
  split <;> rfl

/-- An operator that binds too loosely is left unread. -/
theorem operatorStep_of_loose {name : String} (loose : op.precedence < least) :
    operatorStep rules literals least left ⟨offset, tailText ((op, name) :: later)⟩ =
      .done none ⟨offset, tailText ((op, name) :: later)⟩ := by
  rw [operatorStep_of_operator literals (binaryOperator?_of_tail offset op name later),
    if_pos loose]

include solves

theorem binary_of_name (least offset : Nat) {name : String} (named : isIdentifier name = true)
    (fits : (' ' :: (name.toList ++ tailText tail)).length < rules.bound) :
    rules.binary literals least ⟨offset, ' ' :: (name.toList ++ tailText tail)⟩ =
      iterate (operatorStep rules literals least) rules.bound (.ident (identAt (offset + 1) name))
        ⟨offset + 1 + byteLength name.toList, tailText tail⟩ := by
  have place : Blank.skip ⟨offset, ' ' :: (name.toList ++ tailText tail)⟩ =
      ⟨offset + 1, name.toList ++ tailText tail⟩ := skip_name named (offset + 1) tail
  rw [solves.binary literals least _ fits]
  change binaryExpr rules literals least _ = _
  rw [binaryExpr, bind_apply, unaryExpr_of_name named place literals (by omega)]

theorem operatorStep_of_tail {name : String} (tight : least ≤ op.precedence)
    (named : isIdentifier name = true)
    (fits : (tailText ((op, name) :: later)).length < rules.bound) {right : Expr}
    (read : iterate (operatorStep rules literals (op.precedence + 1)) rules.bound
      (.ident (identAt (offset + 1 + byteLength op.spelling.toList + 1) name))
      ⟨offset + 1 + byteLength op.spelling.toList + 1 + byteLength name.toList, tailText later⟩ =
      .done right rest) :
    operatorStep rules literals least left ⟨offset, tailText ((op, name) :: later)⟩ =
      .done (some (.binary (left.span.merge right.span) op left right)) rest := by
  have short : (' ' :: (name.toList ++ tailText later)).length < rules.bound := by
    simp only [tailText, List.length_cons, List.length_append] at fits ⊢
    omega
  have binary := binary_of_name solves literals (op.precedence + 1)
    (offset + 1 + byteLength op.spelling.toList) named short
  rw [read] at binary
  rw [operatorStep_of_operator literals (binaryOperator?_of_tail offset op name later),
    if_neg (by omega), bind_apply, binary]
  rfl

/-- The operators behind a tree are taken one by one, each with the operand that its
right side is. -/
theorem iterate_climbs {count : Nat} (few : tail.length < count)
    (names : ∀ entry ∈ tail, isIdentifier entry.2 = true)
    (fits : (tailText tail).length < rules.bound) {bound : Nat} (enough : tail.length < bound)
    (isTree : OperatorTree.ofExpr? left = some tree) (grouped : tree.Grouped)
    (atLeast : least ≤ tree.strength)
    (follows : ∀ entry ∈ tail.head?, entry.1.precedence ≤ tree.strength) :
    Climbs least tree tail
      (iterate (operatorStep rules literals least) bound left ⟨offset, tailText tail⟩) := by
  -- The right operand is read from a shorter tail, and so is what follows it.
  induction count generalizing tail bound least offset left tree with
  | zero => exact absurd few (Nat.not_lt_zero _)
  | succ count ih =>
    obtain ⟨bound, rfl⟩ := Nat.exists_eq_succ_of_ne_zero (Nat.ne_of_gt (Nat.zero_lt_of_lt enough))
    rw [iterate, bind_apply]
    cases tail with
    | nil => exact climbs_here isTree grouped atLeast (by simp)
    | cons entry later =>
      obtain ⟨op, name⟩ := entry
      have notMore : later.length < count := Nat.lt_of_succ_lt_succ few
      by_cases loose : op.precedence < least
      · rw [operatorStep_of_loose literals loose]
        exact climbs_here isTree grouped atLeast (by simpa using loose)
      · have namesLater : ∀ entry ∈ later, isIdentifier entry.2 = true :=
          fun entry member => names entry (List.mem_cons_of_mem _ member)
        have fitsLater : (tailText later).length < rules.bound := by
          simp only [tailText, List.length_cons, List.length_append] at fits
          omega
        have operand : Climbs (op.precedence + 1) (.name name) later
            (iterate (operatorStep rules literals (op.precedence + 1)) rules.bound
              (.ident (identAt (offset + 1 + byteLength op.spelling.toList + 1) name))
              ⟨offset + 1 + byteLength op.spelling.toList + 1 + byteLength name.toList,
                tailText later⟩) :=
          ih notMore namesLater fitsLater
            (Nat.lt_of_le_of_lt (tailText_length_le later) fitsLater) rfl trivial
            (precedence_lt op) fun entry _ => Nat.le_of_lt (precedence_lt entry.1)
        obtain ⟨right, rightTree, used, rest, after, read, isRight, rfl, rightTokens,
          groupedRight, tighter, stops⟩ := operand
        rw [operatorStep_of_tail solves literals (Nat.not_lt.mp loose)
          (names _ List.mem_cons_self) fits read]
        have onward : Climbs least (.node op tree rightTree) rest
            (iterate (operatorStep rules literals least) bound
              (.binary (left.span.merge right.span) op left right)
              ⟨after, tailText rest⟩) := by
          rw [List.length_append] at notMore
          rw [tailText_append, List.length_append] at fitsLater
          rw [List.length_cons, List.length_append] at enough
          apply ih (by omega)
            (fun entry member => namesLater entry (List.mem_append_right _ member)) (by omega)
            (by omega)
          · simp [OperatorTree.ofExpr?, isTree, isRight]
          · refine ⟨grouped, groupedRight, ?_, ?_⟩ <;> rw [op.level_eq_precedence]
            · exact follows (op, name) rfl
            · exact tighter
          · rw [OperatorTree.strength, op.level_eq_precedence]
            exact Nat.not_lt.mp loose
          · rw [OperatorTree.strength, op.level_eq_precedence]
            exact fun entry member => Nat.le_of_lt_succ (stops entry member)
        obtain ⟨expr, whole, more, last, finish, ended, isWhole, rfl, wholeTokens, rest⟩ := onward
        refine ⟨expr, whole, (op, name) :: used ++ more, last, finish, ended, isWhole, ?_, ?_, rest⟩
        · simp
        · simp [wholeTokens, OperatorTree.inOrder, rightTokens, tailTokens]

end Climbing

/-- Names with binary operators between them, one blank apart, are read to the end.
The result has them in their order and groups them by the levels of the operators, equal
ones from the left, and it is the only tree that does. -/
theorem expression_groups_operators (first : String) (others : List (BinaryOp × String))
    (namedFirst : isIdentifier first = true)
    (namedOthers : ∀ entry ∈ others, isIdentifier entry.2 = true) :
    let tokens := OperatorToken.name first :: tailTokens others
    let start := Cursor.ofText (" ".intercalate (tokens.map OperatorToken.text))
    ∃ expr rest tree,
      expression (.forText start) start = .done expr rest ∧ rest.rest = [] ∧
      OperatorTree.ofExpr? expr = some tree ∧ tree.inOrder = tokens ∧ tree.Grouped ∧
      ∀ other : OperatorTree, other.inOrder = tokens → other.Grouped → other = tree := by
  intro tokens start
  have text : start.rest = first.toList ++ tailText others := toList_intercalate_tokens first others
  have place : Blank.skip start = ⟨0, first.toList ++ tailText others⟩ := by
    rw [← skip_name namedFirst 0 others, ← text]
    rfl
  have bounded : (Rules.forText start).bound = start.rest.length + 2 := Rules.bound_ofDepth _
  have fits : (tailText others).length < (Rules.forText start).bound := by
    rw [bounded, text, List.length_append]
    omega
  have climbs : Climbs 1 (.name first) others (expression (.forText start) start) := by
    change Climbs 1 (.name first) others (binaryExpr (.forText start) true 1 start)
    rw [binaryExpr, bind_apply, unaryExpr_of_name namedFirst place true (by omega)]
    exact iterate_climbs (Rules.solves_ofDepth _) true (Nat.lt_succ_self _) namedOthers fits
      (Nat.lt_of_le_of_lt (tailText_length_le others) fits) rfl trivial (Nat.le_add_left 1 5)
      (fun entry _ => Nat.le_of_lt (precedence_lt entry.1))
  obtain ⟨expr, tree, used, rest, finish, read, isTree, rfl, inOrder, grouped, -, stops⟩ := climbs
  have consumed : rest = [] := by
    cases rest with
    | nil => rfl
    | cons entry later => exact absurd (stops entry rfl) (Nat.not_lt.mpr (precedence_pos entry.1))
  subst consumed
  have same : tree.inOrder = tokens := by
    rw [inOrder]
    simp [tokens, OperatorTree.inOrder]
  exact ⟨expr, ⟨finish, []⟩, tree, read, rfl, isTree, same, grouped, fun other inOrder' grouped' =>
    grouped'.eq_of_inOrder_eq grouped (inOrder'.trans same.symm)⟩

/-- Products before sums, sums before comparisons, and equal operators from the left. -/
theorem mixed_operators_grouped :
    let others : List (BinaryOp × String) :=
      [(.sub, "b"), (.mul, "c"), (.sub, "d"), (.lt, "e"), (.andNot, "f")]
    isIdentifier "a" = true ∧ (∀ entry ∈ others, isIdentifier entry.2 = true) ∧
    ∃ expr rest,
      expression (.forText (.ofText "a - b * c - d < e &^ f")) (.ofText "a - b * c - d < e &^ f") =
        .done expr rest ∧ rest.rest = [] ∧
      OperatorTree.ofExpr? expr = some
        (.node .lt
          (.node .sub (.node .sub (.name "a") (.node .mul (.name "b") (.name "c"))) (.name "d"))
          (.node .andNot (.name "e") (.name "f"))) := by
  intro others
  have names : isIdentifier "a" = true ∧ ∀ entry ∈ others, isIdentifier entry.2 = true := by decide
  obtain ⟨expr, rest, tree, read, consumed, isTree, -, -, unique⟩ :=
    expression_groups_operators "a" others names.1 names.2
  refine ⟨names.1, names.2, expr, rest, read, consumed, isTree.trans (congrArg some ?_)⟩
  refine (unique _ rfl ?_).symm
  simp [OperatorTree.Grouped, OperatorTree.strength, BinaryOp.level_eq_precedence,
    BinaryOp.precedence]

end Grammar

end Unclosed
