import Unclosed.Proofs.OperandStarts

/-!
Expressions at the end of a line.  An expression that takes up its whole text is the
same expression when the text goes on in a new line, and so is a type.  The only
look ahead that crosses a line end is that for the result of a function type: behind
a type without result an index is first tried as the length of an array, whose
element type may stand in the next line.
-/

namespace Unclosed

/-- A type that ends in a function type without result, or an index of one. -/
def Expr.awaitsResult : Expr → Bool
  | .type written => written.awaitsResult
  | .index _ operand _ => operand.awaitsResult
  | _ => false

/-- The expression ends in an index of a type that ends in a function type without
result. -/
def Expr.indexesType : Expr → Bool
  | .index _ operand _ => operand.awaitsResult
  | .star _ operand => operand.indexesType
  | .unary _ _ operand => operand.indexesType
  | .binary _ _ _ right => right.indexesType
  | _ => false

namespace Grammar

open Grammar.Parser

variable {fewer least offset : Nat} {characters more : List Char} {place : Cursor} {op : BinaryOp}

theorem Rules.Follow.mono {tail : List Char} {limit : Nat} {rules rules' : Rules}
    (follow : rules.Follow tail limit rules') (le : fewer ≤ limit) :
    rules.Follow tail fewer rules' where
  newLine := follow.newLine
  bound := Nat.le_trans le follow.bound
  bound' := Nat.le_trans le follow.bound'
  typeHere := follow.typeHere.mono (Nat.le_refl _) le
  binary literals least := (follow.binary literals least).mono (Nat.le_refl _) le
  unary literals := (follow.unary literals).mono (Nat.le_refl _) le
  element := follow.element.mono (Nat.le_refl _) le
  block := follow.block.mono (Nat.le_refl _) le
  statement := follow.statement.mono (Nat.le_refl _) le
  conditional := follow.conditional.mono (Nat.le_refl _) le

theorem Rules.Grounded.mono {tail : List Char} {limit : Nat} {rules : Rules}
    (grounded : rules.Grounded tail limit) (le : fewer ≤ limit) : rules.Grounded tail fewer where
  follow := grounded.follow.mono le
  solves := grounded.solves
  room := Nat.le_trans (Nat.add_le_add_right le _) grounded.room

/-! ### Where an expression may end -/

def Cursor.CalmDot (tail : List Char) (place : Cursor) : Prop :=
  ∀ middle, lineSymbol "." place = .done () middle → (identifier middle).isDone = false →
    (identifier (middle.followedBy tail)).isDone = false

def OperandEnd (tail : List Char) (rules : Rules) (expr : Expr) (place : Cursor) : Prop :=
  place.CalmDot tail ∧ (place.Calm tail rules ∨ expr.awaitsResult = false
    ∨ place.rest = [] ∧ expr.indexesType = false)

def ExprEnd (tail : List Char) (rules : Rules) (expr : Expr) (place : Cursor) : Prop :=
  place.CalmDot tail ∧ (place.Calm tail rules ∨ place.rest = [] ∧ expr.indexesType = false)

section Calm

variable {tail : List Char} {rules : Rules} {size : Nat} (grounded : rules.Grounded tail size)
  {start rest : Cursor} {expr : Expr} {build : Span → Expr}

theorem ExprEnd.operand (ends : ExprEnd tail rules expr rest) :
    OperandEnd tail rules expr rest :=
  ⟨ends.1, ends.2.imp_right .inr⟩

theorem OperandEnd.typeEnd {type : TypeExpr} (ends : OperandEnd tail rules (.type type) rest) :
    TypeEnd tail rules type rest := by
  intro awaits
  rcases ends.2 with calm | settled | ⟨empty, _⟩
  · exact .inr calm
  · rw [Expr.awaitsResult, awaits] at settled
    cases settled
  · exact .inl (endsSignature_of_end empty)

theorem calmDot_of_other (other : ∀ more, (Blank.skipInLine start).rest ≠ '.' :: more) :
    start.CalmDot tail := by
  intro middle dot
  have found : (Blank.skipInLine start).after? "." = some middle := tag_eq_done.mp dot
  exact absurd (Cursor.text_of_after? found) (other middle.rest)

/-! ### Parts of a parse -/

theorem isDone_bind_pure {α β : Type} {parser : Parser α} {f : α → β} :
    ((parser >>= fun value => pure (f value)) start).isDone = (parser start).isDone := by
  rw [bind_apply]
  cases parser start <;> rfl

theorem isDone_bind_of_done {α β : Type} {parser : Parser α} {next : α → Parser β} {value : α}
    (parsed : parser start = .done value rest) :
    ((parser >>= next) start).isDone = (next value rest).isDone := by
  rw [bind_apply, parsed]

theorem isDone_bind_of_not_done {α β : Type} {parser : Parser α} {next : α → Parser β}
    (missing : (parser start).isDone = false) : ((parser >>= next) start).isDone = false := by
  rw [bind_apply]
  cases reply : parser start with
  | done value rest =>
    rw [reply] at missing
    cases missing
  | miss fault => rfl
  | halt fault => rfl

/-- An index is read after a bracket that is not followed by a colon. -/
theorem indexOrSlice_low (parsed : indexOrSlice rules expr start = .done build rest)
    (noColon : (Blank.skip start).startsWith ":" = false) :
    ∃ low middle, rules.expression (Blank.skip start) = .done low middle
      ∧ ∀ place, (Blank.skip middle).after? "]" = some place →
        rest = place ∧ build = fun span => .index span expr low := by
  obtain ⟨_, _, blank, parsed⟩ := bind_eq_done.mp parsed
  cases blank
  obtain ⟨_, _, looked, parsed⟩ := bind_eq_done.mp parsed
  cases looked
  rw [noColon, if_neg (by simp)] at parsed
  obtain ⟨low, middle, found, parsed⟩ := bind_eq_done.mp parsed
  obtain ⟨index, reads, rfl⟩ := map_eq_done.mp found
  refine ⟨index, middle, reads, ?_⟩
  intro place closes
  obtain ⟨_, _, blank, parsed⟩ := bind_eq_done.mp parsed
  cases blank
  obtain ⟨_, _, looked, parsed⟩ := bind_eq_done.mp parsed
  cases looked
  rw [show (Blank.skip middle).startsWith "]" = true by rw [Cursor.startsWith, closes]; rfl,
    if_pos rfl] at parsed
  obtain ⟨_, _, spelled, given⟩ := bind_eq_done.mp parsed
  cases given
  rw [tag_eq_done, closes] at spelled
  cases spelled
  exact ⟨rfl, rfl⟩

def Parser.Yields {α : Type} (property : α → Prop) (parser : Parser α) : Prop :=
  ∀ start value rest, parser start = .done value rest → property value

namespace Parser.Yields

variable {α β : Type} {property : β → Prop}

theorem bind {parser : Parser α} {next : α → Parser β}
    (later : ∀ value, (next value).Yields property) :
    (parser >>= next).Yields property := by
  intro start value rest parsed
  obtain ⟨found, middle, _, second⟩ := bind_eq_done.mp parsed
  exact later found middle value rest second

theorem pure {value : β} (holds : property value) :
    (Pure.pure value : Parser β).Yields property := by
  intro start result rest parsed
  obtain ⟨rfl, rfl⟩ := pure_eq_done.mp parsed
  exact holds

end Parser.Yields

theorem indexOrSlice_yields (expr : Expr) :
    (indexOrSlice rules expr).Yields fun build =>
      (∃ index, build = fun span => .index span expr index)
        ∨ ∃ low high max, build = fun span => .slice span expr low high max := by
  apply Yields.bind
  intro _
  apply Yields.bind
  intro colon
  cases colon
  all_goals
    apply Yields.bind
    intro low
    apply Yields.bind
    intro _
    apply Yields.bind
    intro closed
    cases closed with
    | true =>
      cases low with
      | none =>
        intro start value rest parsed
        cases parsed
      | some index =>
        apply Yields.bind
        intro _
        exact .pure (.inl ⟨index, rfl⟩)
    | false =>
      apply Yields.bind
      intro _
      apply Yields.bind
      intro high
      apply Yields.bind
      intro second
      cases second
      all_goals
        apply Yields.bind
        intro max
        apply Yields.bind
        intro _
        exact .pure (.inr ⟨low, high, max, rfl⟩)

theorem accepts_cases {β : Type} {parser : Parser Unit} {next : Bool → Parser β} {value : β}
    (parsed : (accepts parser >>= next) start = .done value rest) :
    (∃ middle, parser start = .done () middle ∧ next true middle = .done value rest)
      ∨ (parser start).isDone = false ∧ next false start = .done value rest := by
  rw [accepts_bind, bind_apply] at parsed
  cases found : (parser start).isDone with
  | true =>
    obtain ⟨⟨⟩, middle, read⟩ := Reply.exists_of_isDone found
    rw [probe_of_done read] at parsed
    exact .inl ⟨middle, read, parsed⟩
  | false =>
    rw [probe_of_not_done found] at parsed
    exact .inr ⟨rfl, parsed⟩

/-- A selection finds a name or a parenthesis behind its dot. -/
theorem selection_calm (newLine : NewLine tail)
    (parsed : selection rules expr start = .done build rest)
    (unnamed : (identifier start).isDone = false) :
    (identifier (start.followedBy tail)).isDone = false := by
  obtain ⟨_, _, blank, parsed⟩ := bind_eq_done.mp parsed
  cases blank
  rw [accept_bind_apply] at parsed
  cases opened : (Blank.skip start).after? "(" with
  | some place =>
    have stops : Blank.solid (Blank.skip start).rest = true := solid_of_after? opened (by decide)
    rw [(identifier_matches newLine stops).isDone, unnamed]
  | none =>
    rw [opened] at parsed
    obtain ⟨name, middle, named, _⟩ := bind_eq_done.mp parsed
    rw [identifier_apply, Blank.skip_skip, ← identifier_apply] at named
    rw [named] at unnamed
    cases unnamed

/-! ### Texts that start no type -/

theorem ofCharacters_of_point (single : ∀ others, more ≠ '.' :: others) :
    TypeForm.ofCharacters ('.' :: more) = none := by
  cases more with
  | nil => rfl
  | cons next more =>
    have other : next ≠ '.' := by
      rintro rfl
      exact single more rfl
    have dots : ['.', '.', '.'].isPrefixOf ('.' :: next :: more) = false := by
      simp [List.isPrefixOf, other.symm]
    unfold TypeForm.ofCharacters
    rw [dots]
    rfl

theorem ofCharacters_of_operator {spelling : String} (member : (spelling, op) ∈ BinaryOp.spellings)
    (other : spelling ≠ "*") (single : continuesOperator spelling op more = false) :
    Blank.solid (spelling.toList ++ more) = true
      ∧ TypeForm.ofCharacters (spelling.toList ++ more) = none := by
  simp only [BinaryOp.spellings, List.mem_cons, Prod.mk.injEq, List.not_mem_nil, or_false] at member
  by_cases less : spelling = "<"
  · subst less
    refine ⟨rfl, ?_⟩
    cases more with
    | nil => rfl
    | cons next more =>
      have noArrow : next ≠ '-' := by
        rintro rfl
        cases single
      have arrow : ['<', '-'].isPrefixOf ('<' :: next :: more) = false := by
        simp [List.isPrefixOf, noArrow.symm]
      change TypeForm.ofCharacters ('<' :: next :: more) = none
      unfold TypeForm.ofCharacters
      rw [arrow]
      rfl
  by_cases slash : spelling = "/"
  · subst slash
    refine ⟨?_, rfl⟩
    cases more with
    | nil => rfl
    | cons next more =>
      change Blank.solid ('/' :: next :: more) = true
      rw [Blank.solid]
      · rfl
      · rintro others _ same
        cases same
        cases single
      · rintro others _ same
        cases same
        cases single
  rcases member with ⟨rfl, rfl⟩ | ⟨rfl, rfl⟩ | ⟨rfl, rfl⟩ | ⟨rfl, rfl⟩ | ⟨rfl, rfl⟩ | ⟨rfl, rfl⟩
    | ⟨rfl, rfl⟩ | ⟨rfl, rfl⟩ | ⟨rfl, rfl⟩ | ⟨rfl, rfl⟩ | ⟨rfl, rfl⟩ | ⟨rfl, rfl⟩ | ⟨rfl, rfl⟩
    | ⟨rfl, rfl⟩ | ⟨rfl, rfl⟩ | ⟨rfl, rfl⟩ | ⟨rfl, rfl⟩ | ⟨rfl, rfl⟩ | ⟨rfl, rfl⟩
  all_goals first
    | exact ⟨rfl, rfl⟩
    | contradiction

theorem ofWord_of_head {letters : List Char} (other : letters.head?.any isIdentStart = false) :
    TypeForm.ofWord letters = none := by
  have differs (word : String) (letter : word.toList.head?.any isIdentStart = true) :
      letters ≠ word.toList := by
    rintro rfl
    rw [letter] at other
    cases other
  have unnamed : ¬ isName letters = true := by
    rw [isName, other]
    simp
  rw [TypeForm.ofWord, if_neg (differs _ (by decide)), if_neg (differs _ (by decide)),
    if_neg (differs _ (by decide)), if_neg (differs _ (by decide)), if_neg (differs _ (by decide)),
    if_neg unnamed]

theorem ofCharacters_of_literal (literal : startsAmong literalSigns characters = true)
    (opens : opensOperand characters = true) : TypeForm.ofCharacters characters = none := by
  obtain ⟨next, more, rfl, member⟩ := head_of_startsAmong literal
  by_cases point : next = '.'
  · subst point
    apply ofCharacters_of_point
    rintro others rfl
    cases opens
  · by_cases letter : isIdentChar next = true
    · rw [TypeForm.ofCharacters_of_letter letter]
      apply ofWord_of_head
      rw [List.takeWhile_cons_of_pos letter]
      have digits : ∀ sign ∈ literalSigns, isIdentStart sign = false := by decide
      exact digits next member
    · have quotes : ∀ sign ∈ literalSigns, sign ≠ '.' → ¬ isIdentChar sign = true →
          sign ∈ ['"', '`', '\''] := by decide
      have quote := quotes next member point letter
      simp only [List.mem_cons, List.not_mem_nil, or_false] at quote
      rcases quote with rfl | rfl | rfl
      · rfl
      · rfl
      · rfl

theorem ofCharacters_of_sign {op : UnaryOp} (signed : signOperator? start = some op) :
    TypeForm.ofCharacters start.rest = none := by
  obtain ⟨next, sign, more, text⟩ := starts_of_signOperator? signed
  rw [text]
  simp only [signs, List.mem_cons, List.not_mem_nil, or_false] at sign
  rcases sign with rfl | rfl | rfl | rfl | rfl <;> rfl

/-! ### Calm places -/

include grounded

section

variable (short : start.rest.length < size)
include short

theorem grounded_unary {literals : Bool} :
    rules.unary literals start = unaryExpr rules literals start := by
  have room := grounded.room
  exact grounded.solves.unary literals start (by omega)

theorem grounded_binary {literals : Bool} :
    rules.binary literals least start = binaryExpr rules literals least start := by
  have room := grounded.room
  exact grounded.solves.binary literals least start (by omega)

theorem calm_of_start {form : TypeForm} (starts : TypeForm.at? start = some form)
    (alike : (form.parser rules (Blank.skip start)).isDone = false →
      (form.parser rules ((Blank.skip start).followedBy tail)).isDone = false) :
    start.Calm tail rules := by
  apply calm_of_form grounded short (TypeForm.solid_of_at? starts)
  intro found same
  rw [starts] at same
  cases same
  exact alike

theorem calm_of_none (stops : Blank.solid (Blank.skip start).rest = true)
    (none : TypeForm.at? start = none) :
    start.Calm tail rules := by
  apply calm_of_form grounded short stops
  intro form starts
  rw [none] at starts
  cases starts

theorem calm_of_line (text : (Blank.skipInLine start).rest = characters)
    (stops : Blank.solid characters = true) (none : TypeForm.ofCharacters characters = none) :
    start.Calm tail rules := by
  subst text
  have same := Blank.skip_eq_skipInLine stops
  apply calm_of_none grounded short
  · rwa [same]
  · rwa [TypeForm.at?, same]

theorem calm_of_paren (place : Blank.skip start = ⟨offset, '(' :: more⟩)
    (enclosed : closes 1 more = true) :
    start.Calm tail rules := by
  have length := Blank.length_skip_lt short
  rw [place, List.length_cons] at length
  have inside :
      let inner := do let inner ← rules.type; symbol ")"; pure fun span => inner.withSpan span
      Tracks tail size (closes 1) inner inner (fun _ => 0) fun _ => closes 0 := by
    intro _ first short
    apply TracksFrom.bind (type_outlined grounded.follow 0).tracks (.refl first _) (by omega)
    intro inner rest led
    apply TracksFrom.bind (symbol_tracks (.closing rfl rfl)) led (first.below _)
    intro _ rest led
    exact .pure led (by omega) rfl
  have alike := (inside ⟨offset + 1, more⟩ (Nat.lt_of_succ_lt length)).alike
    ⟨grounded.newLine, .inr enclosed⟩
  have starts : TypeForm.at? start = some .paren := by
    rw [TypeForm.at?, place]
    rfl
  apply calm_of_start grounded short starts
  rw [place]
  intro missing
  exact alike.isDone.trans missing

end

/-! ### Lengths and indexes -/

/-- What is the length of an array between brackets is an index that ends at the same
place, and no slice. -/
theorem index_end_eq {length : Option (Option Expr)} (short : start.rest.length < size)
    (parsed : indexOrSlice rules expr start = .done build rest)
    (read : arrayLength rules start = .done length place) :
    rest = place ∧ ∃ index, build = fun span => .index span expr index := by
  have opens {low : Expr} {middle : Cursor}
      (found : rules.expression (Blank.skip start) = .done low middle) :
      opensOperand (Blank.skip start).rest = true := by
    have opens := opensOperand_of_binaryExpr
      ((grounded_binary grounded (Blank.length_skip_lt short)).symm.trans found)
    rwa [Blank.skip_skip] at opens
  have starts : (Blank.skip start).startsWith ":" = true
      ∨ opensOperand (Blank.skip start).rest = true := by
    cases colon : (Blank.skip start).startsWith ":" with
    | true => exact .inl rfl
    | false =>
      obtain ⟨low, middle, found, _⟩ := indexOrSlice_low parsed colon
      exact .inr (opens found)
  -- A closing bracket or dots start neither an operand nor slice bounds.
  have refuses {characters : List Char} (text : (Blank.skip start).rest = characters)
      (other : (characters.head? != some ':') = true)
      (noOperand : opensOperand characters = false) : False := by
    subst text
    rcases starts with colon | opens
    · rw [Cursor.startsWith, after?_eq_none (by simpa using other)] at colon
      cases colon
    · rw [noOperand] at opens
      cases opens
  rcases accepts_cases read with ⟨middle, closed, _⟩ | ⟨_, read⟩
  · exact (refuses (Cursor.text_of_after? (symbol_eq_done.mp closed)) rfl rfl).elim
  · rcases accepts_cases read with ⟨middle, dots, _⟩ | ⟨_, read⟩
    · exact (refuses (Cursor.text_of_after? (symbol_eq_done.mp dots)) rfl rfl).elim
    · obtain ⟨length, middle, found, read⟩ := bind_eq_done.mp read
      obtain ⟨_, _, closed, given⟩ := bind_eq_done.mp read
      cases given
      have same : rules.expression (Blank.skip start) = rules.expression start := by
        rw [Rules.expression, grounded_binary grounded (Blank.length_skip_lt short),
          grounded_binary grounded short, binaryExpr_skip]
      have noColon : (Blank.skip start).startsWith ":" = false := by
        rw [Bool.eq_false_iff]
        intro colon
        obtain ⟨after, spelled⟩ := Option.isSome_iff_exists.mp colon
        have operand := opens (same.trans found)
        rw [Cursor.text_of_after? spelled] at operand
        cases operand
      obtain ⟨index, middle', found', ends⟩ := indexOrSlice_low parsed noColon
      rw [same, found] at found'
      cases found'
      obtain ⟨same, built⟩ := ends place (symbol_eq_done.mp closed)
      exact ⟨same, _, built⟩

/-- What stands between brackets is closed in the text, so that behind an index a type
starts where one starts behind the brackets of an array. -/
theorem calm_of_index {expr : Expr} {build : Span → Expr} (short : start.rest.length < size)
    (place : Blank.skip start = ⟨offset, '[' :: more⟩)
    (parsed : indexOrSlice rules expr ⟨offset + 1, more⟩ = .done build rest)
    (calm : ∀ index, (build = fun span => .index span expr index) → rest.Calm tail rules) :
    start.Calm tail rules := by
  have length := Blank.length_skip_lt short
  rw [place, List.length_cons] at length
  have inBounds : (⟨offset + 1, more⟩ : Cursor).rest.length < size := Nat.lt_of_succ_lt length
  have settled :=
    ((indexOrSlice_draws grounded.follow expr 0).tracks ⟨offset + 1, more⟩ inBounds).settled
  rw [parsed] at settled
  have alike := (arrayLength_tracks grounded.follow ⟨offset + 1, more⟩ inBounds).alike
    ⟨grounded.newLine, .inr settled.same.symm⟩
  have starts : TypeForm.at? start = some .array := by
    rw [TypeForm.at?, place]
    rfl
  apply calm_of_start grounded short starts
  rw [place, TypeForm.parser, arrayOrSliceType_eq]
  change (Reply.isDone ((arrayLength rules >>= fun length => rules.type >>= fun elem =>
      pure (arrayOf length elem)) ⟨offset + 1, more⟩)) = false →
    (Reply.isDone ((arrayLength rules >>= fun length => rules.type >>= fun elem =>
      pure (arrayOf length elem)) ((⟨offset + 1, more⟩ : Cursor).followedBy tail))) = false
  cases found : (arrayLength rules ⟨offset + 1, more⟩).isDone with
  | false => exact fun _ => isDone_bind_of_not_done (alike.isDone.trans found)
  | true =>
    obtain ⟨length, stop, read⟩ := Reply.exists_of_isDone found
    obtain ⟨rfl, index, built⟩ := index_end_eq grounded inBounds parsed read
    rw [read] at alike
    rw [isDone_bind_of_done read, isDone_bind_of_done alike.of_done, isDone_bind_pure,
      isDone_bind_pure]
    exact calm index built

/-! ### Operations -/

/-- An operation that does not go on starts where its operand does not go on. -/
theorem OperationRead.back (short : start.rest.length < size)
    (read : OperationRead rules expr (Blank.skipInLine start) build rest) {span : Span}
    (ends : OperandEnd tail rules (build span) rest) : OperandEnd tail rules expr start := by
  generalize line : Blank.skipInLine start = place at read
  have undotted (other : place.rest.head? ≠ some '.') : start.CalmDot tail := by
    apply calmDot_of_other
    intro more text
    rw [line] at text
    rw [text] at other
    exact other rfl
  have skipped (stops : Blank.solid place.rest = true) : Blank.skip start = place := by
    rw [← line] at stops ⊢
    exact Blank.skip_eq_skipInLine stops
  cases read with
  | @select offset more build rest single reads =>
    constructor
    · intro middle dot unnamed
      have spelled : (Blank.skipInLine start).after? "." = some middle := tag_eq_done.mp dot
      rw [line] at spelled
      cases spelled
      exact selection_calm grounded.newLine reads unnamed
    · exact .inl (calm_of_line grounded short (by rw [line]) (Blank.solid_cons more (by decide))
        (ofCharacters_of_point single))
  | @call offset more build rest arguments reads =>
    refine ⟨undotted (by simp), .inl ?_⟩
    have inBounds : (⟨offset + 1, more⟩ : Cursor).rest.length < size := by
      have := (Blank.reaches_skipInLine start).length_le
      rw [line, List.length_cons] at this
      exact Nat.lt_of_succ_lt (Nat.lt_of_le_of_lt this short)
    have settled :=
      ((argumentList_draws grounded.follow 0).tracks ⟨offset + 1, more⟩ inBounds).settled
    rw [reads] at settled
    exact calm_of_paren grounded short (skipped (Blank.solid_cons more (by decide)))
      settled.same.symm
  | @index offset more build rest reads =>
    refine ⟨undotted (by simp), ?_⟩
    have back := calm_of_index grounded short (skipped (Blank.solid_cons more (by decide))) reads
    rcases indexOrSlice_yields expr _ build rest reads with ⟨index, rfl⟩ | ⟨low, high, max, rfl⟩
    · rcases ends.2 with calm | settled | ⟨_, settled⟩
      · exact .inl (back fun _ _ => calm)
      · exact .inr (.inl settled)
      · exact .inr (.inl settled)
    · apply Or.inl
      apply back
      intro index same
      cases congrFun same span
  | @fill offset more build rest =>
    exact ⟨undotted (by simp),
      .inl (calm_of_line grounded short (by rw [line]) (Blank.solid_cons more (by decide)) rfl)⟩

/-! ### Operators -/

theorem calm_of_star (short : start.rest.length < size)
    (spelled : (Blank.skip start).after? "*" = some place) (calm : place.Calm tail rules) :
    start.Calm tail rules := by
  have spelled' : tag "*" (Blank.skip start) = .done () place := tag_eq_done.mpr spelled
  have alike : (tag "*" (Blank.skip start)).Matches tail
      (tag "*" ((Blank.skip start).followedBy tail)) :=
    tag_matches grounded.newLine (by decide)
  rw [spelled'] at alike
  have starts : TypeForm.at? start = some .pointer := by
    rw [TypeForm.at?, Cursor.text_of_after? spelled]
    rfl
  apply calm_of_start grounded short starts
  rw [TypeForm.parser, pointerType, isDone_bind_of_done spelled',
    isDone_bind_of_done alike.of_done, isDone_bind_pure, isDone_bind_pure]
  exact calm

theorem operator_back (short : start.rest.length < size)
    (operator : binaryOperator? start = some (op, place)) (calm : place.Calm tail rules) :
    start.CalmDot tail ∧ start.Calm tail rules := by
  obtain ⟨spelling, member, spelled, single⟩ := spelled_of_binaryOperatorIn operator
  have text := Cursor.text_of_after? spelled
  have undotted : ∀ entry ∈ BinaryOp.spellings, entry.1.toList.head?.any (· != '.') = true := by
    decide
  constructor
  · apply calmDot_of_other
    intro more dot
    rw [text] at dot
    have other := undotted _ member
    cases letters : spelling.toList with
    | nil =>
      rw [letters] at other
      cases other
    | cons first others =>
      rw [letters] at dot other
      cases dot
      cases other
  · by_cases star : spelling = "*"
    · subst star
      have stops := solid_of_after? spelled (by decide)
      rw [← Blank.skip_eq_skipInLine stops] at spelled
      exact calm_of_star grounded short spelled calm
    · obtain ⟨stops, none⟩ := ofCharacters_of_operator member star single
      exact calm_of_line grounded short text stops none

/-! ### Operands -/

section

variable (short : start.rest.length < size)
include short

theorem calm_of_type {type : TypeExpr}
    (parsed : typeHere rules (Blank.skip start) = .done type rest) : start.Calm tail rules := by
  intro missing
  change (rules.typeHere (Blank.skip start)).isDone = false at missing
  rw [grounded_typeHere grounded (Blank.length_skip_lt short), parsed] at missing
  cases missing

theorem calm_of_function (starts : (keyword "func" (Blank.skip start)).isDone = true)
    (parsed : functionLiteral rules (Blank.skip start) = .done expr rest) :
    start.Calm tail rules := by
  have form : TypeForm.at? (Blank.skip start) = some .func := by
    by_cases form : TypeForm.at? (Blank.skip start) = some .func
    · exact form
    · have misses : (keyword "func").Misses (Blank.skip start) :=
        TypeForm.keyword_misses_of_form form rfl (by decide)
      obtain ⟨_, _, found⟩ := Reply.exists_of_isDone starts
      exact absurd found misses.not_done
  obtain ⟨_, _, before, parsed⟩ := bind_eq_done.mp parsed
  cases before
  obtain ⟨_, middle, spelled, parsed⟩ := bind_eq_done.mp parsed
  obtain ⟨signature, place, read, _⟩ := bind_eq_done.mp parsed
  intro missing
  change (rules.typeHere (Blank.skip start)).isDone = false at missing
  rw [grounded_typeHere grounded (Blank.length_skip_lt short), isDone_typeHere form,
    TypeForm.parser, funcType, isDone_bind_of_done spelled, isDone_bind_pure, read] at missing
  cases missing

theorem calm_of_name {name : Ident} (parsed : identifier (Blank.skip start) = .done name rest)
    (dot : rest.CalmDot tail) :
    start.Calm tail rules := by
  have newLine := grounded.newLine
  have form : TypeForm.at? start = some .name := by
    by_cases form : TypeForm.at? start = some .name
    · exact form
    · rw [identifier_apply, Blank.skip_skip, ← identifier_apply] at parsed
      exact absurd parsed (TypeForm.identifier_misses_of_form form).not_done
  have lasting : Endures tail anywhere (Blank.skip start) identifier :=
    identifier_lasts newLine
  have lasts := lasting name rest parsed trivial
  have alike : (lineSymbol "." rest).Matches tail (lineSymbol "." (rest.followedBy tail)) :=
    matches_of_plain newLine fun _ => lineSymbol_tracks (.plain (by decide))
  apply calm_of_start grounded short form
  rw [TypeForm.parser, namedType, isDone_bind_of_done parsed, isDone_bind_of_done lasts,
    accepts_bind]
  cases dotted : (lineSymbol "." rest).isDone with
  | false =>
    intro missing
    rw [isDone_bind_of_done (probe_of_not_done dotted)] at missing
    cases missing
  | true =>
    obtain ⟨⟨⟩, place, read⟩ := Reply.exists_of_isDone dotted
    rw [read] at alike
    rw [isDone_bind_of_done (probe_of_done read), isDone_bind_of_done (probe_of_done alike.of_done)]
    simp only [Option.isSome_some, if_true]
    rw [isDone_bind_pure, isDone_bind_pure]
    exact dot place read

theorem OperandRead.calm (read : OperandRead rules (Blank.skip start) expr rest)
    (dot : rest.CalmDot tail) :
    start.Calm tail rules := by
  have settled := Blank.skip_skip start
  have opens := read.opens settled
  cases read with
  | @paren opened closed rest inner span opening reads closing =>
    have text : (Blank.skip start).rest = '(' :: opened.rest := Cursor.text_of_after? opening
    have length := Blank.length_skip_lt short
    rw [text, List.length_cons] at length
    have inside :=
      ((grounded.follow.binary true 1 0).tracks opened (Nat.lt_of_succ_lt length)).settled
    rw [show rules.binary true 1 opened = _ from reads] at inside
    have := inside.reaches.length_le
    have close : Tracks tail size (closes 1) (symbol ")") (symbol ")") (fun _ => 1)
        fun _ => closes 0 := symbol_tracks (.closing rfl rfl)
    have outside := (close closed (by omega)).settled
    rw [closing] at outside
    have enclosed : closes 1 opened.rest = true := inside.same.symm.trans outside.same.symm
    have place : Blank.skip start = ⟨(Blank.skip start).offset, '(' :: opened.rest⟩ := by
      rw [← text]
    exact calm_of_paren grounded short place enclosed
  | function starts reads => exact calm_of_function grounded short starts reads
  | type starts reads => exact calm_of_type grounded short reads
  | literal reads =>
    apply calm_of_none grounded short (solid_of_opensOperand opens)
    exact ofCharacters_of_literal (literalSigns_of_basicLiteral settled reads) opens
  | name reads => exact calm_of_name grounded short reads dot

theorem calm_of_receive {literals : Bool} {operand : Expr} (shorter : place.rest.length < size)
    (arrow : (Blank.skip start).after? "<-" = some place)
    (other : (keyword "chan" place).isDone = false)
    (reads : rules.unary literals place = .done operand rest) : start.Calm tail rules := by
  have newLine := grounded.newLine
  have stops : Blank.solid (Blank.skip place).rest = true :=
    solid_of_opensOperand
      (opensOperand_of_unaryExpr ((grounded_unary grounded shorter).symm.trans reads))
  have chan : (keyword "chan" (place.followedBy tail)).isDone = false :=
    (keyword_matches newLine stops (by decide)).isDone.trans other
  have arrow' :
      ((Blank.skip start).followedBy tail).after? "<-" = some (place.followedBy tail) := by
    rw [Cursor.after?_followedBy newLine (by decide), arrow]
    rfl
  have starts : TypeForm.at? start = some .chan := by
    rw [TypeForm.at?, Cursor.text_of_after? arrow]
    rfl
  apply calm_of_start grounded short starts
  intro _
  rw [TypeForm.parser, chanType, accept_bind_apply, arrow']
  exact isDone_bind_of_not_done chan

end

end Calm

/-! ### Repeated steps -/

section Iterate

variable {α : Type} {tail : List Char} {limit : Nat} {allowed : α → Cursor → Prop}
  {step step' : α → Parser (Option α)}

/-- A step that finds nothing stays where it is, and what is allowed behind a step is allowed
before it. -/
structure Retraces (limit : Nat) (allowed : α → Cursor → Prop) (step : α → Parser (Option α)) :
    Prop where
  stays : ∀ value start rest, step value start = .done none rest → rest = start
  moves : ∀ value start next rest, start.rest.length < limit →
    step value start = .done (some next) rest → start.Reaches 0 rest
  back : ∀ value start next rest, start.rest.length < limit →
    step value start = .done (some next) rest → allowed next rest → allowed value start

theorem Retraces.iterate (retraces : Retraces limit allowed step) {bound : Nat} :
    ∀ {value result : α} {start rest : Cursor}, start.rest.length < limit →
      iterate step bound value start = .done result rest → allowed result rest →
        allowed value start := by
  induction bound with
  | zero =>
    intro value result start rest _ parsed
    cases parsed
  | succ bound ih =>
    intro value result start rest short parsed ends
    obtain ⟨found, middle, stepped, later⟩ := bind_eq_done.mp parsed
    cases found with
    | none =>
      cases retraces.stays value start middle stepped
      cases later
      exact ends
    | some next =>
      have := (retraces.moves value start next middle short stepped).length_le
      exact retraces.back value start next middle short stepped (ih (by omega) later ends)

theorem iterate_lasts (retraces : Retraces limit allowed step)
    (lasts : ∀ value start, start.rest.length < limit →
      Lasts tail (fun found rest => ∀ next, found = some next → allowed next rest) start
        (step value) (step' value)) (bound : Nat) :
    ∀ (value : α) (start : Cursor), start.rest.length < limit →
      Lasts tail allowed start (iterate step bound value) (iterate step' bound value) := by
  induction bound with
  | zero =>
    intro value start _
    exact .fail
  | succ bound ih =>
    intro value start short
    apply Lasts.bind (lasts value start short)
    · rintro found middle result rest stepped later ends next rfl
      have := (retraces.moves value start next middle short stepped).length_le
      exact retraces.iterate (by omega) later ends
    · intro found middle stepped
      cases found with
      | none => exact .pure
      | some next =>
        have := (retraces.moves value start next middle short stepped).length_le
        exact ih next middle (by omega)

end Iterate

/-! ### Expressions that last -/

/-- Types and expressions on texts below the limit last where they may end, and nothing
starts a type that did not where an expression starts. -/
structure Rules.Lasting (tail : List Char) (limit : Nat) (rules : Rules) : Prop where
  typeHere : ∀ start : Cursor, start.rest.length < limit →
    Lasts tail (TypeEnd tail rules) start rules.typeHere rules.typeHere
  unary : ∀ literals (start : Cursor), start.rest.length < limit →
    Lasts tail (ExprEnd tail rules) start (rules.unary literals) (rules.unary literals)
  binary : ∀ literals least (start : Cursor), start.rest.length < limit →
    Lasts tail (ExprEnd tail rules) start (rules.binary literals least)
      (rules.binary literals least)
  unaryCalm : ∀ literals (start : Cursor) expr rest, start.rest.length < limit →
    rules.unary literals start = .done expr rest → ExprEnd tail rules expr rest →
      start.Calm tail rules
  binaryCalm : ∀ literals least (start : Cursor) expr rest, start.rest.length < limit →
    rules.binary literals least start = .done expr rest → ExprEnd tail rules expr rest →
      start.Calm tail rules

section Expressions

variable {tail : List Char} {rules : Rules} {size limit : Nat} (grounded : rules.Grounded tail size)
  (lasting : rules.Lasting tail limit) (below : limit < size) {start rest : Cursor}
  (literals : Bool)

theorem operationStep_cases {literals : Bool} {first : Cursor} {expr : Expr} {found : Option Expr}
    (parsed : operationStep rules literals first expr start = .done found rest) :
    (found = none ∧ rest = start)
      ∨ ∃ build span, found = some (build span)
        ∧ OperationRead rules expr (Blank.skipInLine start) build rest := by
  obtain ⟨operation, middle, read, given⟩ := bind_eq_done.mp parsed
  rcases OperationRead.of_operation read with ⟨rfl, rfl⟩ | ⟨build, rfl, operated⟩
  · cases given
    exact .inl ⟨rfl, rfl⟩
  · cases given
    exact .inr ⟨build, _, rfl, operated⟩

include grounded

theorem operationStep_retraces (first : Cursor) :
    Retraces size (OperandEnd tail rules) (operationStep rules literals first) where
  stays := by
    intro expr start rest stepped
    rcases operationStep_cases stepped with ⟨_, same⟩ | ⟨_, _, impossible, _⟩
    · exact same
    · cases impossible
  moves := by
    intro expr start next rest short stepped
    have room := grounded.room
    exact (grounded.solves.reaches (.operationStep literals first expr) (by omega) stepped).mono
      (Nat.zero_le _)
  back := by
    intro expr start next rest short stepped ends
    rcases operationStep_cases stepped with ⟨impossible, _⟩ | ⟨build, span, found, read⟩
    · cases impossible
    · cases found
      exact read.back grounded short ends

include lasting below

theorem operatorStep_retraces (least : Nat) :
    Retraces (limit + 1) (ExprEnd tail rules) (operatorStep rules literals least) where
  stays := by
    intro left start rest stepped
    rcases operatorStep_cases stepped with ⟨_, same⟩ | ⟨_, _, _, _, _, _, impossible⟩
    · exact same
    · cases impossible
  moves := by
    intro left start next rest short stepped
    have room := grounded.room
    exact (grounded.solves.reaches (.operatorStep literals least left) (by omega) stepped).mono
      (Nat.zero_le _)
  back := by
    intro left start next rest short stepped ends
    rcases operatorStep_cases stepped with ⟨impossible, _⟩ | ⟨op, place, right, span, operator,
      reads, found⟩
    · cases impossible
    · cases found
      have := (leads_of_binaryOperator? operator 0).reaches.length_le
      have calm := lasting.binaryCalm literals _ place right rest (by omega) reads ends
      obtain ⟨dot, calm⟩ := operator_back grounded (by omega) operator calm
      exact ⟨dot, .inl calm⟩

/-- Where an operand with its operators starts, no other type starts in the longer text. -/
theorem unaryExpr_calm {literals : Bool} {expr : Expr} (short : start.rest.length < limit + 1)
    (parsed : unaryExpr rules literals start = .done expr rest)
    (ends : ExprEnd tail rules expr rest) : start.Calm tail rules := by
  have read := UnaryRead.of_unaryExpr parsed
  have stops := solid_of_opensOperand (read.opens (Blank.skip_skip start))
  have length := (Blank.reaches_skip start).length_le
  have inBounds : start.rest.length < size := by omega
  cases read with
  | @receive place rest operand span arrow other reads =>
    have reaches : (Blank.skip start).Reaches 2 place := Cursor.reaches_of_after? arrow
    have := reaches.length_le
    exact calm_of_receive grounded inBounds (by omega) arrow other reads
  | @star place rest operand span spelled reads =>
    have reaches : (Blank.skip start).Reaches 1 place := Cursor.reaches_of_after? spelled
    have := reaches.length_le
    have calm := lasting.unaryCalm literals place operand rest (by omega) reads ends
    exact calm_of_star grounded inBounds spelled calm
  | @sign op place rest operand span signed reads =>
    apply calm_of_none grounded inBounds stops
    exact ofCharacters_of_sign signed
  | bare reads =>
    obtain ⟨_, _, before, reads⟩ := bind_eq_done.mp reads
    cases before
    obtain ⟨first, middle, read, later⟩ := bind_eq_done.mp reads
    have room := grounded.room
    have := (grounded.solves.reaches .operand (by omega) read).length_le
    have firstEnds := (operationStep_retraces grounded literals (Blank.skip start)).iterate
      (by omega) later ends.operand
    have operandRead := OperandRead.of_operand read
    rw [Blank.skip_skip] at operandRead
    exact operandRead.calm grounded inBounds firstEnds.1

theorem binaryExpr_calm {literals : Bool} {expr : Expr} (short : start.rest.length < limit + 1)
    (parsed : binaryExpr rules literals least start = .done expr rest)
    (ends : ExprEnd tail rules expr rest) : start.Calm tail rules := by
  obtain ⟨first, middle, read, later⟩ := bind_eq_done.mp parsed
  have room := grounded.room
  have := (grounded.solves.reaches (.unaryExpr literals) (by omega) read).length_le
  have firstEnds := (operatorStep_retraces grounded lasting below literals least).iterate
    (by omega) later ends
  exact unaryExpr_calm grounded lasting below short read firstEnds

omit lasting below

theorem block_lasts (short : start.rest.length < size) {allowed : Block → Cursor → Prop} :
    Endures tail allowed start rules.block := by
  have newLine := grounded.newLine
  have room := grounded.room
  have body : Endures tail allowed start (block rules) := by
    apply Lasts.blanks newLine
    · intro result rest parsed
      obtain ⟨_, _, before, parsed⟩ := bind_eq_done.mp parsed
      cases before
      obtain ⟨_, middle, opened, _⟩ := bind_eq_done.mp parsed
      exact solid_of_after? (tag_eq_done.mp opened) (by decide)
    · apply Lasts.here
      apply Lasts.tag newLine (by decide) (by decide)
      intro middle shorter
      have := (Blank.reaches_skip start).length_le
      apply Lasts.bracket newLine (statementList_outlined grounded.follow 0).tracks
        (context_tracks _ (symbol_tracks (.closing rfl rfl))) (by omega)
      intro stmts middle _
      apply Lasts.span
      intro span
      exact .pure
  intro value rest parsed ends
  rw [grounded.solves.block start (by omega)] at parsed
  rw [grounded.solves.block (start.followedBy tail) (by
    rw [Cursor.followedBy, List.length_append]
    omega)]
  exact body value rest parsed ends

theorem selection_lasts (expr : Expr) (short : start.rest.length < size)
    {allowed : (Span → Expr) → Cursor → Prop} :
    Endures tail allowed start (selection rules expr) := by
  have newLine := grounded.newLine
  apply Lasts.blanks newLine
  · intro build rest parsed
    rw [accept_bind_apply] at parsed
    cases opened : (Blank.skip start).after? "(" with
    | some place => exact solid_of_after? opened (by decide)
    | none =>
      rw [opened] at parsed
      obtain ⟨name, middle, named, _⟩ := bind_eq_done.mp parsed
      have stops := solid_of_identifier named
      rwa [Blank.skip_skip] at stops
  · apply Lasts.accept newLine (by decide)
    · intro place opened
      have := (Blank.reaches_skip start).length_le
      have := (Cursor.reaches_of_after? opened).length_le
      refine @Lasts.closed _ _ _ _ newLine (fun _ => 0) _ _ ?_
      apply TracksFrom.accepts (keyword_balanced (by decide) 0) (.refl place _) (place.below _)
      · intro rest led
        apply TracksFrom.bind (symbol_tracks (.closing rfl rfl)) led (place.below _)
        intro _ rest led
        exact .pure led (by omega) rfl
      · intro rest led
        apply TracksFrom.bind (type_outlined grounded.follow 0).tracks led (by omega)
        intro type rest led
        apply TracksFrom.bind (symbol_tracks (.closing rfl rfl)) led (place.below _)
        intro _ rest led
        exact .pure led (by omega) rfl
    · intro _
      apply Lasts.andThen (identifier_lasts newLine)
      intro name middle _
      exact .pure

theorem literalValue_lasts (short : start.rest.length < size)
    {allowed : List Expr → Cursor → Prop} :
    Endures tail allowed start (literalValue rules) := by
  have follow := grounded.follow
  apply Lasts.tag follow.newLine (by decide) (by decide)
  intro middle shorter
  exact .closed follow.newLine
    (collect_tracks (elementTurn_draws follow 0).tracks follow.bound follow.bound' middle (by omega))

theorem operation_lasts (expr : Expr) (short : start.rest.length < size)
    {allowed : Option (Span → Expr) → Cursor → Prop} :
    Endures tail allowed start (operation rules literals expr) := by
  have newLine := grounded.newLine
  apply Lasts.here
  apply Lasts.lineBlanks newLine
  apply Lasts.here
  have nothing : Lasts tail allowed (Blank.skipInLine start) (do resume start; pure none)
      (do resume (start.followedBy tail); pure none) :=
    .resume .pure
  have length := (Blank.reaches_skipInLine start).length_le
  revert nothing length
  generalize Blank.skipInLine start = place
  obtain ⟨offset, characters⟩ := place
  intro nothing length
  dsimp only [Cursor.followedBy] at nothing length ⊢
  split
  · exact nothing
  · next single =>
    split
    · next same =>
      obtain ⟨more, pair⟩ := newLine.starts ['.', '.'] same (by decide)
      exact (single more (List.cons.inj pair).2).elim
    · apply Lasts.tag newLine (by decide) (by decide)
      intro middle shorter
      exact .map (selection_lasts grounded expr (by simp at *; omega))
    · next same => cases same
    · next same => cases same
    · next same => cases same
    · next _ other _ _ _ => exact (other _ rfl).elim
  · apply Lasts.tag newLine (by decide) (by decide)
    intro middle shorter
    apply Lasts.closing newLine (context_tracks _ (argumentList_draws grounded.follow 0).tracks)
      (by simp at *; omega)
    intro arguments middle _
    exact .pure
  · apply Lasts.tag newLine (by decide) (by decide)
    intro middle shorter
    exact .map (.closed newLine ((indexOrSlice_draws grounded.follow expr 0).tracks middle
      (by simp at *; omega)))
  · dsimp only [List.cons_append]
    split
    · apply Lasts.andThen (.context _ (literalValue_lasts grounded (by simp at *; omega)))
      intro elements middle _
      exact .pure
    · exact nothing
  · next dots dot parenthesis bracket brace =>
    split
    · next same => exact (newLine.absent (by decide) dot same).elim
    · next same => exact (newLine.absent (by decide) dot same).elim
    · next same => exact (newLine.absent (by decide) parenthesis same).elim
    · next same => exact (newLine.absent (by decide) bracket same).elim
    · next same => exact (newLine.absent (by decide) brace same).elim
    · exact nothing

theorem operationStep_lasts (first : Cursor) (expr : Expr) (short : start.rest.length < size)
    {allowed : Option Expr → Cursor → Prop} :
    Lasts tail allowed start (operationStep rules literals first expr)
      (operationStep rules literals (first.followedBy tail) expr) := by
  apply Lasts.andThen (operation_lasts grounded literals expr short)
  intro found middle _
  cases found with
  | none => exact .pure
  | some build =>
    apply Lasts.span
    intro span
    exact .pure

include lasting below

/-- Behind the signature of a function literal or type nothing starts a result. -/
theorem functionLiteral_lasts (short : start.rest.length < limit + 1) :
    Endures tail (OperandEnd tail rules) start (functionLiteral rules) := by
  have newLine := grounded.newLine
  apply Lasts.here
  apply Lasts.keyword newLine (by decide) (by decide)
  intro middle shorter
  have room := grounded.room
  have smaller := grounded.mono (Nat.le_of_lt below)
  apply Lasts.bind (signature_lasts smaller lasting.typeHere (by omega))
  · intro signature place expr rest read parsed ends
    have := (grounded.solves.reaches .signature (by omega) read).length_le
    obtain ⟨_, _, before, parsed⟩ := bind_eq_done.mp parsed
    cases before
    obtain ⟨_, _, blank, parsed⟩ := bind_eq_done.mp parsed
    cases blank
    obtain ⟨_, _, looked, parsed⟩ := bind_eq_done.mp parsed
    cases looked
    cases opened : (Blank.skipInLine place).startsWith "\x7b" with
    | true =>
      obtain ⟨after, found⟩ := Option.isSome_iff_exists.mp opened
      have calm := calm_of_line grounded (by omega) (Cursor.text_of_after? found) rfl rfl
      exact ⟨⟨0, 0⟩, fun _ => .inr calm⟩
    | false =>
      rw [opened] at parsed
      cases parsed
      exact ⟨_, OperandEnd.typeEnd ends⟩
  · intro signature place read
    have := (grounded.solves.reaches .signature (by omega) read).length_le
    apply Lasts.here
    apply Lasts.lineBlanks newLine
    have := (Blank.reaches_skipInLine place).length_le
    apply Lasts.nextIs newLine (by decide)
    intro answer _
    cases answer with
    | true =>
      apply Lasts.andThen (.context _ (block_lasts grounded (by omega)))
      intro body middle _
      apply Lasts.span
      intro span
      exact .pure
    | false =>
      apply Lasts.resume
      apply Lasts.span
      intro span
      exact .pure

omit grounded lasting below in
theorem opensTypeLiteral_followedBy (newLine : NewLine tail)
    (stops : Blank.solid (Blank.skip start).rest = true) :
    opensTypeLiteral (start.followedBy tail) = opensTypeLiteral start := by
  have unmarked : ∀ word ∈ typeWords, word.toList ≠ []
      ∧ ∀ character ∈ word.toList, character ∉ marks := by decide
  have same (word : String) (member : word ∈ typeWords) :
      (keyword word (start.followedBy tail)).isDone = (keyword word start).isDone :=
    (keyword_matches newLine stops (unmarked word member)).isDone
  rw [opensTypeLiteral, opensTypeLiteral, Cursor.startsWith_followedBy newLine (by decide),
    Cursor.startsWith_followedBy newLine (by decide)]
  simp [typeWords, same _ (show "map" ∈ typeWords by decide),
    same _ (show "struct" ∈ typeWords by decide), same _ (show "chan" ∈ typeWords by decide),
    same _ (show "interface" ∈ typeWords by decide)]

theorem operand_lasts (short : start.rest.length < limit + 1) :
    Endures tail (OperandEnd tail rules) start (operand rules) := by
  have newLine := grounded.newLine
  apply Lasts.of_run
  intro expr rest parsed
  have settled := Blank.skip_skip start
  have opens := (OperandRead.of_operand parsed).opens settled
  have stops := solid_of_opensOperand opens
  have stops' : Blank.solid (Blank.skip (Blank.skip start)).rest = true := by rwa [settled]
  have length := (Blank.reaches_skip start).length_le
  apply Lasts.blanks newLine fun _ _ _ => stops
  apply Lasts.here
  apply Lasts.accept newLine (by decide)
  · intro opened found
    have := (Cursor.reaches_of_after? found).length_le
    apply Lasts.bracket newLine (grounded.follow.binary true 1 0).tracks
      (symbol_tracks (.closing rfl rfl)) (by omega)
    intro inner middle _
    apply Lasts.span
    intro span
    exact .pure
  · intro _
    apply Lasts.sees
    · intro _ _ _
      exact (keyword_matches newLine stops' (by decide)).isDone
    intro func _
    cases func with
    | true => exact functionLiteral_lasts grounded lasting below (by omega)
    | false =>
      simp only [Bool.false_eq_true, if_false]
      apply Lasts.known (seesTypeLiteral_apply _)
        ((seesTypeLiteral_apply _).trans (by rw [opensTypeLiteral_followedBy newLine stops']))
      cases opensTypeLiteral (Blank.skip start) with
      | true =>
        apply Lasts.bind (typeHere_lasts (grounded.mono (Nat.le_of_lt below))
          lasting.typeHere (by omega))
        · intro type middle expr rest _ given ends
          cases given
          exact OperandEnd.typeEnd ends
        · intro type middle _
          exact .pure
      | false =>
        intro expr rest parsed ends
        have atom := expectingExpression_eq_done.mp parsed
        exact expectingExpression_eq_done.mpr (atom_lasts newLine settled expr rest atom ends)

theorem postfixExpr_lasts (short : start.rest.length < limit + 1) :
    Endures tail (OperandEnd tail rules) start (postfixExpr rules literals) := by
  have room := grounded.room
  have retraces := operationStep_retraces grounded literals start
  have reached {first : Expr} {middle : Cursor} (read : operand rules start = .done first middle) :
      middle.rest.length < size := by
    have := (grounded.solves.reaches .operand (by omega) read).length_le
    omega
  apply Lasts.here
  apply Lasts.bind (operand_lasts grounded lasting below short)
  · intro first middle expr rest read parsed ends
    exact retraces.iterate (reached read) parsed ends
  · intro first middle read
    apply iterate_lasts retraces _ _ _ _ (reached read)
    intro expr start short
    exact operationStep_lasts grounded literals _ expr short

omit grounded lasting below in
theorem seesReceive_followedBy (newLine : NewLine tail) {answer : Bool}
    (looked : seesReceive start = .done answer start)
    (stops : answer = true → ∀ place, start.after? "<-" = some place →
      Blank.solid (Blank.skip place).rest = true) :
    seesReceive (start.followedBy tail) = .done answer (start.followedBy tail) := by
  unfold seesReceive at looked ⊢
  rw [Cursor.after?_followedBy newLine (by decide)]
  cases arrow : start.after? "<-" with
  | none =>
    rw [arrow] at looked
    cases looked
    rfl
  | some place =>
    rw [arrow] at looked
    cases looked
    have alike :
        (keyword "chan" (place.followedBy tail)).isDone = (keyword "chan" place).isDone := by
      cases chan : (keyword "chan" place).isDone with
      | false =>
        rw [(keyword_matches newLine (stops (by rw [chan]; rfl) place arrow)
          (by decide)).isDone, chan]
      | true =>
        obtain ⟨_, _, found⟩ := Reply.exists_of_isDone chan
        rw [(keyword_matches newLine (solid_of_keyword found (by decide)) (by decide)).isDone, chan]
    dsimp only [Option.map_some]
    rw [alike]

omit grounded below in
theorem operatorOperand_lasts (place : Cursor) {build : Span → Expr → Expr}
    (same : ∀ span operand, (build span operand).indexesType = operand.indexesType)
    (short : start.rest.length < limit) :
    Lasts tail (ExprEnd tail rules) start (operatorOperand rules literals place build)
      (operatorOperand rules literals (place.followedBy tail) build) := by
  apply Lasts.bind (lasting.unary literals start short)
  · intro operand middle expr rest _ given ends
    cases given
    rw [ExprEnd, same] at ends
    exact ends
  · intro operand middle _
    exact .pure

theorem unaryExpr_lasts (short : start.rest.length < limit + 1) :
    Endures tail (ExprEnd tail rules) start (unaryExpr rules literals) := by
  have newLine := grounded.newLine
  apply Lasts.of_run
  intro expr rest parsed
  have stops := solid_of_opensOperand (opensOperand_of_unaryExpr parsed)
  have length := (Blank.reaches_skip start).length_le
  obtain ⟨answer, looked, receives⟩ := seesReceive_done (Blank.skip start)
  have arrowStops : answer = true → ∀ place, (Blank.skip start).after? "<-" = some place →
      Blank.solid (Blank.skip place).rest = true := by
    rintro rfl place arrow
    obtain ⟨_, _, blank, parsed⟩ := bind_eq_done.mp parsed
    cases blank
    obtain ⟨_, _, before, parsed⟩ := bind_eq_done.mp parsed
    cases before
    rw [bind_apply, looked] at parsed
    obtain ⟨_, middle, spelled, parsed⟩ := bind_eq_done.mp parsed
    rw [tag_eq_done, arrow] at spelled
    cases spelled
    obtain ⟨operand, _, reads, _⟩ := bind_eq_done.mp parsed
    have := (Cursor.reaches_of_after? arrow).length_le
    rw [grounded_unary grounded (by omega)] at reads
    exact solid_of_opensOperand (opensOperand_of_unaryExpr reads)
  apply Lasts.blanks newLine fun _ _ _ => stops
  apply Lasts.here
  apply Lasts.known looked (seesReceive_followedBy newLine looked arrowStops)
  cases answer with
  | true =>
    apply Lasts.tag newLine (by decide) (by decide)
    intro middle shorter
    exact operatorOperand_lasts lasting literals _ (fun _ _ => rfl) (by omega)
  | false =>
    simp only [Bool.false_eq_true, if_false]
    apply Lasts.accept newLine (by decide)
    · intro middle spelled
      have reaches : (Blank.skip start).Reaches 1 middle := Cursor.reaches_of_after? spelled
      have := reaches.length_le
      exact operatorOperand_lasts lasting literals _ (fun _ _ => rfl) (by omega)
    · intro _
      simp only [Bool.false_eq_true, if_false]
      rw [signOperator?_followedBy newLine]
      cases sign : signOperator? (Blank.skip start) with
      | none =>
        exact (postfixExpr_lasts grounded lasting below literals (by omega)).mono
          fun _ _ ends => ends.operand
      | some op =>
        obtain ⟨middle, reads, reads', leads⟩ := leads_of_signOperator? sign
        have := (leads 0).reaches.length_le
        apply Lasts.known reads (reads' tail)
        exact operatorOperand_lasts lasting literals _ (fun _ _ => rfl) (by omega)

omit below in
theorem operatorStep_lasts (least : Nat) (left : Expr) (short : start.rest.length < limit + 1) :
    Endures tail (fun found rest => ∀ next, found = some next → ExprEnd tail rules next rest) start
      (operatorStep rules literals least left) := by
  apply Lasts.here
  rw [binaryOperator?_followedBy grounded.newLine]
  cases operator : binaryOperator? start with
  | none => exact .pure
  | some entry =>
    obtain ⟨op, place⟩ := entry
    have := (leads_of_binaryOperator? operator 0).reaches.length_le
    dsimp only [Option.map_some]
    split
    · exact .pure
    · apply Lasts.resume
      apply Lasts.bind (lasting.binary literals (op.precedence + 1) place (by omega))
      · intro right middle found rest _ given ends
        cases given
        exact show ExprEnd tail rules (.binary _ op left right) middle from ends _ rfl
      · intro right middle _
        exact .pure

theorem binaryExpr_lasts (least : Nat) (short : start.rest.length < limit + 1) :
    Endures tail (ExprEnd tail rules) start (binaryExpr rules literals least) := by
  have room := grounded.room
  have retraces := operatorStep_retraces grounded lasting below literals least
  have reached {first : Expr} {middle : Cursor}
      (read : unaryExpr rules literals start = .done first middle) :
      middle.rest.length < limit + 1 := by
    have := (grounded.solves.reaches (.unaryExpr literals) (by omega) read).length_le
    omega
  apply Lasts.bind (unaryExpr_lasts grounded lasting below literals short)
  · intro first middle expr rest read parsed ends
    exact retraces.iterate (reached read) parsed ends
  · intro first middle read
    apply iterate_lasts retraces _ _ _ _ (reached read)
    intro left start short
    exact operatorStep_lasts grounded lasting literals least left short

/-- Rules that last on shorter texts last on texts of one character more. -/
theorem Rules.Lasting.extend : rules.Lasting tail (limit + 1) := by
  have room := grounded.room
  have longer (start : Cursor) : (start.followedBy tail).rest.length
      = start.rest.length + tail.length := List.length_append
  refine ⟨?_, ?_, ?_, ?_, ?_⟩
  · intro start short type rest parsed ends
    rw [grounded_typeHere grounded (by omega)] at parsed
    rw [grounded_typeHere_followedBy grounded (by omega)]
    exact typeHere_lasts (grounded.mono (Nat.le_of_lt below)) lasting.typeHere short type rest
      parsed ends
  · intro literals start short expr rest parsed ends
    rw [grounded_unary grounded (by omega)] at parsed
    have lasts := unaryExpr_lasts grounded lasting below literals short expr rest parsed ends
    rw [← lasts]
    exact grounded.solves.unary literals _ (by rw [longer]; omega)
  · intro literals least start short expr rest parsed ends
    rw [grounded_binary grounded (by omega)] at parsed
    have lasts := binaryExpr_lasts grounded lasting below literals least short expr rest parsed ends
    rw [← lasts]
    exact grounded.solves.binary literals least _ (by rw [longer]; omega)
  · intro literals start expr rest short parsed ends
    rw [grounded_unary grounded (by omega)] at parsed
    exact unaryExpr_calm grounded lasting below short parsed ends
  · intro literals least start expr rest short parsed ends
    rw [grounded_binary grounded (by omega)] at parsed
    exact binaryExpr_calm grounded lasting below short parsed ends

end Expressions

theorem Rules.Grounded.lasting {tail : List Char} {rules : Rules} {size : Nat}
    (grounded : rules.Grounded tail size) {limit : Nat} (within : limit ≤ size) :
    rules.Lasting tail limit := by
  induction limit with
  | zero => constructor <;> intros <;> contradiction
  | succ limit ih =>
    exact (ih (Nat.le_of_succ_le within)).extend grounded within

theorem Rules.grounded_ofDepth {tail : List Char} (newLine : NewLine tail) (size : Nat) :
    (ofDepth (size + tail.length)).Grounded tail size where
  follow := follow_ofDepth newLine size (Nat.le_add_right _ _) (Nat.le_add_right _ _)
  solves := solves_ofDepth _
  room := Nat.le_of_eq (bound_ofDepth _).symm

/-! ### Line ends -/

section LineEnds

variable {tail : List Char} (newLine : NewLine tail) {start rest : Cursor}
include newLine

/-- A solution for the text as it stands and for the longer one. -/
theorem exists_grounded (start : Cursor) :
    ∃ rules : Rules, rules.Grounded tail (start.rest.length + 1)
      ∧ start.rest.length < rules.bound ∧ (start.followedBy tail).rest.length < rules.bound := by
  refine ⟨_, Rules.grounded_ofDepth newLine (start.rest.length + 1), ?_, ?_⟩
  · rw [Rules.bound_ofDepth]
    omega
  · rw [Rules.bound_ofDepth, Cursor.followedBy, List.length_append]
    omega

theorem expression_lasts {expr : Expr}
    (parsed : expression (.forText start) start = .done expr rest) (empty : rest.rest = [])
    (plain : expr.indexesType = false
      ∨ (typeExpr (.forText (rest.followedBy tail)) (rest.followedBy tail)).isDone = false) :
    expression (.forText (start.followedBy tail)) (start.followedBy tail)
      = .done expr (rest.followedBy tail) := by
  obtain ⟨rules, grounded, short, short'⟩ := exists_grounded newLine start
  have lasting := grounded.lasting (Nat.le_of_lt (Nat.lt_succ_self start.rest.length))
  have read : binaryExpr rules true 1 start = .done expr rest :=
    (grounded.solves.parser_eq (.expressionWith true) short).symm.trans parsed
  have reaches := grounded.solves.reaches (.binaryExpr true 1) short read
  have ends : ExprEnd tail rules expr rest := by
    constructor
    · intro middle dot
      have spelled : (Blank.skipInLine rest).after? "." = some middle := tag_eq_done.mp dot
      have length := (Blank.reaches_skipInLine rest).length_le
      rw [Cursor.text_of_after? spelled, empty] at length
      cases length
    · rcases plain with plain | noType
      · exact .inr ⟨empty, plain⟩
      · have length := reaches.length_le
        have inBounds : (rest.followedBy tail).rest.length < rules.bound := by
          rw [Cursor.followedBy, List.length_append] at short' ⊢
          omega
        have same : typeExpr (.forText (rest.followedBy tail)) (rest.followedBy tail)
            = typeExpr rules (rest.followedBy tail) := grounded.solves.parser_eq .typeExpr inBounds
        rw [same] at noType
        refine .inl fun _ => ?_
        change (rules.typeHere (Blank.skip (rest.followedBy tail))).isDone = false
        rw [grounded.solves.typeHere _ (Blank.length_skip_lt inBounds)]
        exact noType
  have lasts := binaryExpr_lasts grounded lasting (Nat.lt_succ_self _) true 1
    (Nat.lt_succ_self _) expr rest read ends
  exact (grounded.solves.parser_eq (.expressionWith true) short').trans lasts

theorem typeHere_lasts_of_end {type : TypeExpr}
    (parsed : typeHere (.forText start) start = .done type rest) (empty : rest.rest = []) :
    typeHere (.forText (start.followedBy tail)) (start.followedBy tail)
      = .done type (rest.followedBy tail) := by
  obtain ⟨rules, grounded, short, short'⟩ := exists_grounded newLine start
  have smaller := grounded.mono (Nat.le_succ _)
  have read : typeHere rules start = .done type rest :=
    (grounded.solves.parser_eq .typeHere short).symm.trans parsed
  have lasts := typeHere_lasts smaller (smaller.lasting (Nat.le_refl _)).typeHere
    (Nat.lt_succ_self _) type rest read fun _ => .inl (endsSignature_of_end empty)
  exact (grounded.solves.parser_eq .typeHere short').trans lasts

end LineEnds

/-- Where a parser stops that has read the whole text. -/
theorem followedBy_of_end {α : Type} (production : Production α) {text : String} {value : α}
    {rest : Cursor}
    (parsed : production.parser (.forText (.ofText text)) (.ofText text) = .done value rest)
    (empty : rest.rest = []) (tail : List Char) :
    rest.followedBy tail = ⟨text.utf8ByteSize, tail⟩ := by
  have short : (Cursor.ofText text).rest.length < (Rules.forText (.ofText text)).bound := by
    rw [Rules.forText, Rules.bound_ofDepth]
    omega
  obtain ⟨read, _, characters, offset⟩ := (Rules.solves_ofDepth _).reaches production short parsed
  rw [empty, List.append_nil] at characters
  rw [Cursor.followedBy, empty, offset, ← characters]
  simp [Cursor.ofText, byteLength_toList]

/-- A new line ends a complete expression and a complete type, whatever stands in it.  The
exception is an expression that ends in an index of a function type without result: it is
followed by no type in the next line. -/
theorem newLine_ends_expression (text more : String) :
    let start := Cursor.ofText text
    let longer := Cursor.ofText (text ++ "\n" ++ more)
    let line : Cursor := ⟨text.utf8ByteSize, '\n' :: more.toList⟩
    (∀ expr rest, expression (.forText start) start = .done expr rest → rest.rest = [] →
        expr.indexesType = false ∨ (typeExpr (.forText line) line).isDone = false →
          expression (.forText longer) longer = .done expr line)
      ∧ ∀ type rest, typeHere (.forText start) start = .done type rest → rest.rest = [] →
          typeHere (.forText longer) longer = .done type line := by
  intro start longer line
  have newLine : NewLine ('\n' :: more.toList) := by
    rintro next rest ⟨⟩
    rfl
  have longer_eq : longer = start.followedBy ('\n' :: more.toList) := by
    simp [longer, start, Cursor.ofText, Cursor.followedBy]
  constructor
  · intro expr rest parsed empty plain
    have stop : rest.followedBy ('\n' :: more.toList) = line :=
      followedBy_of_end (.expressionWith true) parsed empty _
    rw [← stop] at plain ⊢
    rw [longer_eq]
    exact expression_lasts newLine parsed empty plain
  · intro type rest parsed empty
    have stop : rest.followedBy ('\n' :: more.toList) = line :=
      followedBy_of_end .typeHere parsed empty _
    rw [← stop, longer_eq]
    exact typeHere_lasts_of_end newLine parsed empty

/-- The index of an element and a function type without result, with a type in the next line. -/
theorem sum_before_type :
    ∃ expr, expression (.forText (.ofText "a[0] + func()")) (.ofText "a[0] + func()")
        = .done expr ⟨13, []⟩
      ∧ expr.indexesType = false
      ∧ expression (.forText (.ofText ("a[0] + func()" ++ "\n" ++ "int")))
          (.ofText ("a[0] + func()" ++ "\n" ++ "int")) = .done expr ⟨13, "\nint".toList⟩ := by
  have read : (match expression (.forText (.ofText "a[0] + func()")) (.ofText "a[0] + func()") with
      | .done expr rest => some (expr.indexesType, rest)
      | .miss _ => none
      | .halt _ => none) = some (false, ⟨13, []⟩) := by
    decide +kernel
  cases parsed : expression (.forText (.ofText "a[0] + func()")) (.ofText "a[0] + func()") with
  | done expr rest =>
    rw [parsed] at read
    obtain ⟨plain, rfl⟩ := Prod.mk.inj (Option.some.inj read)
    have ends := (newLine_ends_expression "a[0] + func()" "int").1 expr _ parsed rfl (.inl plain)
    exact ⟨expr, rfl, plain, ends⟩
  | miss fault =>
    rw [parsed] at read
    cases read
  | halt fault =>
    rw [parsed] at read
    cases read

/-- An index of a function type is taken for the length of an array if a type follows in the
next line. -/
theorem index_of_type_crosses_line :
    (match expression (.forText (.ofText "func()[0]")) (.ofText "func()[0]") with
      | .done (.index _ (.type _) _) rest => some rest
      | _ => none) = some ⟨9, []⟩
      ∧ (match expression (.forText (.ofText "func()[0]\nint")) (.ofText "func()[0]\nint") with
        | .done (.type _) rest => some rest
        | _ => none) = some ⟨13, []⟩ := by
  decide +kernel

end Grammar
end Unclosed
