import Unclosed.Proofs.TrackedParsers

/-!
Blanks, words and literals in two runs.  Between brackets that the text closes,
every token is read alike whatever follows the text on a new line.
-/

namespace Unclosed.Grammar

variable {gauge gauge' : Gauge} {start : Cursor} {character : Char} {depth : Nat}

namespace Parser

variable {α β : Type} {tail : List Char} {limit : Nat} {predicate : Char → Bool} {word : String}

abbrev PlainToken (tail : List Char) (limit least : Nat) (parser : Parser α) : Prop :=
  Plain tail limit least parser parser

abbrev BalancedToken (tail : List Char) (limit least : Nat) (parser : Parser α) : Prop :=
  Balanced tail limit least parser parser

/-! ### Single steps -/

theorem tracks_of {parser : Parser α} {least : α → Nat} {after : α → Gauge}
    (settled : ∀ start, Settled start gauge least after (parser start))
    (alike : ∀ start, NewLine tail → gauge start.rest = true →
      (parser start).Matches tail (parser (start.followedBy tail))) :
    Tracks tail limit gauge parser parser least after := by
  intro first _
  refine ⟨settled first, ?_⟩
  rintro ⟨newLine, rfl | enclosed⟩
  · rw [Cursor.followedBy_nil]
    exact .refl _
  · exact alike first newLine enclosed

theorem move_tracks {least : Nat} {step : Cursor → Option Cursor}
    (leads : ∀ start rest, step start = some rest → start.Leads least gauge rest gauge')
    (alike : ∀ start, NewLine tail → gauge start.rest = true →
      step (start.followedBy tail) = (step start).map (Cursor.followedBy tail)) :
    Tracks tail limit gauge (move step) (move step) (fun _ => least) fun _ => gauge' := by
  apply tracks_of
  · intro start
    rw [move]
    cases stepped : step start with
    | none => exact .silent (.refl start)
    | some rest => exact leads start rest stepped
  · intro start newLine enclosed
    rw [move, move, alike start newLine enclosed]
    cases step start with
    | none =>
      apply Reply.Matches.miss
      rintro rfl
      rw [Cursor.followedBy_nil]
    | some rest => exact .done () rest

theorem skip_tracks {step : Cursor → Cursor}
    (leads : ∀ start : Cursor, start.Leads 0 gauge (step start) gauge)
    (alike : ∀ start : Cursor, NewLine tail → gauge start.rest = true →
      step (start.followedBy tail) = (step start).followedBy tail) :
    Tracks tail limit gauge (skip step) (skip step) (fun _ => 0) fun _ => gauge := by
  apply tracks_of
  · exact leads
  · intro start newLine enclosed
    rw [skip, skip, alike start newLine enclosed]
    exact .done () _

theorem blanks_balanced : BalancedToken tail limit 0 blanks := by
  intro depth
  apply skip_tracks
  · intro start
    exact ⟨Blank.reaches_skip start, Blank.closes_skip _ start⟩
  · intro start newLine enclosed
    exact Blank.skip_followedBy newLine enclosed

theorem lineBlanks_plain : PlainToken tail limit 0 lineBlanks := by
  intro depth
  apply skip_tracks
  · intro start
    exact ⟨Blank.reaches_skipInLine start, Blank.closes_skipInLine _ start⟩
  · intro start newLine _
    exact Blank.skipInLine_followedBy newLine start

theorem lineBlanks_balanced : BalancedToken tail limit 0 lineBlanks :=
  lineBlanks_plain.balanced

/-! ### Characters -/

theorem rest_ne_nil (nil : gauge [] = false) (enclosed : gauge start.rest = true) :
    start.rest ≠ [] := by
  intro empty
  rw [empty, nil] at enclosed
  cases enclosed

section

variable (unmarked : ∀ mark ∈ marks, predicate mark = false)
include unmarked

theorem plain_of_marks (holds : predicate character = true) : character ∉ marks := by
  intro mark
  rw [unmarked character mark] at holds
  cases holds

theorem satisfy_plain : PlainToken tail limit 1 (satisfy predicate) := by
  intro depth
  apply move_tracks
  · intro start rest found
    refine ⟨Cursor.reaches_of_afterChar? found, ?_⟩
    obtain ⟨next, holds, text⟩ := Cursor.of_afterChar? found
    rw [text, closes_plain (plain_of_marks unmarked holds)]
  · intro start newLine _
    obtain ⟨offset, characters⟩ := start
    cases characters with
    | nil =>
      cases tail with
      | nil => rfl
      | cons next more =>
        cases newLine next more rfl
        simp [Cursor.followedBy, Cursor.afterChar?, unmarked '\n' (by decide)]
    | cons next rest => exact Cursor.afterChar?_followedBy predicate tail (List.cons_ne_nil _ _)

theorem takeWhile_plain : PlainToken tail limit 0 (takeWhile predicate) := by
  intro depth
  apply skip_tracks
  · intro start
    exact ⟨Cursor.reaches_skipWhile predicate start,
      Cursor.closes_skipWhileFrom (fun _ => plain_of_marks unmarked) _ _ _⟩
  · intro start newLine _
    exact Cursor.skipWhileFrom_followedBy newLine (unmarked '\n' (by decide)) _ _

theorem takeWhile1_plain : PlainToken tail limit 1 (takeWhile1 predicate) := by
  apply Plain.of_from
  intro depth first short led
  apply TracksFrom.bind (satisfy_plain unmarked depth) led (first.below _)
  intro _ rest led
  exact .call (takeWhile_plain unmarked depth) led (first.below _) (fun _ => by omega) fun _ => rfl

end

/-! ### Words -/

/-- Reading the word leads from one gauge to the other. -/
structure Steps (word : String) (gauge gauge' : Gauge) : Prop where
  inLine : '\n' ∉ word.toList
  leads : ∀ start rest : Cursor, start.after? word = some rest → start.Leads 1 gauge rest gauge'

namespace Steps

variable {word : String} {depth : Nat}

theorem plain
    (unmarked : word.toList ≠ [] ∧ ∀ character ∈ word.toList, character ∉ marks) :
    Steps word (closes depth) (closes depth) where
  inLine := fun member => unmarked.2 '\n' member (by decide)
  leads := by
    intro start rest found
    have some : 1 ≤ word.toList.length := List.length_pos_iff.mpr unmarked.1
    exact ⟨(Cursor.reaches_of_after? found).mono some,
      Cursor.closes_of_afterChars? unmarked.2 found depth⟩

theorem rest_of_single {single : Char} (word_eq : word.toList = [single]) {rest : Cursor}
    (found : start.after? word = some rest) : start.rest = single :: rest.rest := by
  rw [Cursor.text_of_after? found, word_eq]
  rfl

variable (word_eq : word.toList = [character])
include word_eq

theorem single (leads : ∀ rest, gauge (character :: rest) = gauge' rest)
    (inLine : character ≠ '\n') :
    Steps word gauge gauge' where
  inLine := by
    rw [word_eq, List.mem_singleton]
    exact inLine.symm
  leads := by
    intro start rest found
    have reaches := Cursor.reaches_of_after? found
    rw [word_eq] at reaches
    exact ⟨reaches, by rw [rest_of_single word_eq found, leads]⟩

theorem opening (opens : isOpening character = true) :
    Steps word (closes (depth + 1)) (closes (depth + 2)) := by
  apply single word_eq (closes_opening opens depth)
  rintro rfl
  cases opens

theorem closing (closed : isClosing character = true) :
    Steps word (closes (depth + 1)) (closes depth) := by
  apply single word_eq (closes_closing closed depth)
  rintro rfl
  cases closed

end Steps

theorem tag_tracks (steps : Steps word gauge gauge') :
    Tracks tail limit gauge (tag word) (tag word) (fun _ => 1) fun _ => gauge' :=
  move_tracks steps.leads fun start newLine _ => start.after?_followedBy newLine steps.inLine

theorem symbol_tracks (steps : Steps word (closes (depth + 1)) gauge') :
    Tracks tail limit (closes (depth + 1)) (symbol word) (symbol word) (fun _ => 1)
      fun _ => gauge' := by
  intro first short
  apply TracksFrom.bind (blanks_balanced depth) (.refl first _) (first.below _)
  intro _ rest led
  exact .call (tag_tracks steps) led (first.below _) (fun _ => by omega) fun _ => rfl

theorem lineSymbol_tracks (steps : Steps word (closes depth) gauge') :
    Tracks tail limit (closes depth) (lineSymbol word) (lineSymbol word) (fun _ => 1)
      fun _ => gauge' := by
  intro first short
  apply TracksFrom.bind (lineBlanks_plain depth) (.refl first _) (first.below _)
  intro _ rest led
  exact .call (tag_tracks steps) led (first.below _) (fun _ => by omega) fun _ => rfl

theorem sendArrow_balanced : BalancedToken tail limit 1 sendArrow := by
  apply Balanced.of_from
  intro depth first short led
  apply TracksFrom.bind (lineSymbol_tracks (.plain (by decide))) led (first.below _)
  intro _ rest led
  exact .call (tag_tracks (.plain (by decide))) led (first.below _) (fun _ => by omega) fun _ => rfl

theorem identChar_unmarked : ∀ mark ∈ marks, isIdentChar mark = false := by decide

theorem wholeWord_plain
    (unmarked : word.toList ≠ [] ∧ ∀ character ∈ word.toList, character ∉ marks) :
    PlainToken tail limit 1
      (do tag word; if ← sees (satisfy isIdentChar) then fail else pure () : Parser Unit) := by
  apply Plain.of_from
  intro depth first short led
  apply TracksFrom.bind (tag_tracks (.plain unmarked)) led (first.below _)
  intro _ rest led
  apply TracksFrom.bind (sees_tracks (satisfy_plain identChar_unmarked _)) led (first.below _)
  intro followed rest led
  cases followed with
  | true => exact .fail led
  | false => exact .pure led (by omega) rfl

theorem keyword_balanced
    (unmarked : word.toList ≠ [] ∧ ∀ character ∈ word.toList, character ∉ marks) :
    BalancedToken tail limit 1 (keyword word) := by
  apply Balanced.of_from
  intro depth first short led
  apply TracksFrom.bind (blanks_balanced depth) led (first.below _)
  intro _ rest led
  exact .call (wholeWord_plain unmarked _) led (first.below _) (fun _ => by omega) fun _ => rfl

theorem name_plain : PlainToken tail limit 1 (do satisfy isIdentStart; takeWhile isIdentChar) := by
  apply Plain.of_from
  intro depth first short led
  apply TracksFrom.bind (satisfy_plain (by decide) depth) led (first.below _)
  intro _ rest led
  exact .call (takeWhile_plain identChar_unmarked depth) led (first.below _) (fun _ => by omega)
    fun _ => rfl

theorem freeName_plain : PlainToken tail limit 1
    (do
      let start ← here
      let (name, span) ← recognize (do satisfy isIdentStart; takeWhile isIdentChar)
      if isKeyword name then
        resume start
        fail
      else
        pure ⟨name, span⟩ : Parser Ident) := by
  apply Plain.of_from
  intro depth first short led
  apply TracksFrom.here
  apply TracksFrom.bind (recognize_tracks (name_plain _)) led (first.below _)
  intro found rest read
  obtain ⟨name, span⟩ := found
  dsimp only
  split
  · exact .resume (.fail led)
  · exact .pure read (by omega) rfl

theorem accept_tracks (steps : Steps word gauge gauge') :
    Tracks tail limit gauge (accept word) (accept word) (fun found => bif found then 1 else 0)
      fun found => bif found then gauge' else gauge := by
  apply tracks_of
  · intro start
    rw [accept]
    cases found : start.after? word with
    | none => exact .refl start gauge
    | some rest => exact steps.leads start rest found
  · intro start newLine _
    rw [accept, accept, Cursor.after?_followedBy newLine steps.inLine]
    cases start.after? word with
    | none => exact .done false start
    | some rest => exact .done true rest

theorem nextIs_tracks (inLine : '\n' ∉ word.toList) :
    Tracks tail limit gauge (nextIs word) (nextIs word) (fun _ => 0) fun _ => gauge := by
  apply tracks_of
  · intro start
    exact .refl start gauge
  · intro start newLine _
    rw [nextIs, nextIs, Cursor.startsWith_followedBy newLine inLine]
    exact .done _ start

/-! ### Statement ends -/

theorem closes_of_blockEnd? {offset : Nat} {crosses : Bool} {rest : List Char} {stop : Cursor}
    (found : Blank.blockEnd? ⟨offset, rest⟩ = some (crosses, stop)) :
    closes depth stop.rest = closes depth ('/' :: '*' :: rest) := by
  cases depth with
  | zero => rfl
  | succ depth =>
    rw [closes, closes, escapes]
    exact (Blank.escapes_of_blockEndFrom found depth).symm

/-- The end of a statement behind the blanks of its line. -/
theorem statementEnd_settled (depth : Nat) (start : Cursor) :
    Settled start (closes (depth + 1)) (fun _ => 0) (fun _ => closes (depth + 1))
      (statementEnd start) := by
  have led : start.Leads 0 (closes (depth + 1)) (Blank.skipInLine start) (closes (depth + 1)) :=
    ⟨Blank.reaches_skipInLine start, Blank.closes_skipInLine _ start⟩
  unfold statementEnd
  generalize Blank.skipInLine start = place at led
  obtain ⟨offset, characters⟩ := place
  dsimp only
  split
  · exact led
  · exact led
  · exact led
  · next rest =>
    exact led.trans ⟨(Cursor.Reaches.cons _ offset rest).mono (Nat.zero_le _),
      (closes_plain (by decide) _ _).symm⟩
  · next rest =>
    exact led.trans ⟨(Cursor.Reaches.cons _ offset rest).mono (Nat.zero_le _),
      (closes_newLine _ _).symm⟩
  · next rest =>
    exact led.trans ⟨Cursor.reaches_skipWhile _ _, Blank.closes_skipLine _ offset rest⟩
  · next rest =>
    have opened : Cursor.Reaches 0 ⟨offset, '/' :: '*' :: rest⟩ ⟨offset + 2, rest⟩ :=
      .pair rfl rfl offset rest
    split
    · next stop found =>
      exact led.trans ⟨opened.trans (Blank.reaches_of_blockEndFrom found),
        closes_of_blockEnd? found⟩
    · exact .saying _ led.reaches
    · exact .silent (led.reaches.trans opened)
  · exact .saying _ led.reaches

theorem statementEnd_alike (newLine : NewLine tail)
    (enclosed : closes (depth + 1) start.rest = true) :
    (statementEnd start).Matches tail (statementEnd (start.followedBy tail)) := by
  rw [← Blank.closes_skipInLine] at enclosed
  unfold statementEnd
  rw [Blank.skipInLine_followedBy newLine]
  generalize Blank.skipInLine start = place at enclosed
  obtain ⟨offset, characters⟩ := place
  dsimp only [Cursor.followedBy] at enclosed ⊢
  split
  · cases enclosed
  · exact .done () ⟨offset, _⟩
  · exact .done () ⟨offset, _⟩
  · exact .done () ⟨offset + 1, _⟩
  · exact .done () ⟨offset + 1, _⟩
  · next rest =>
    have stop := Blank.skipLine_followedBy newLine ⟨offset, '/' :: '/' :: rest⟩
    dsimp only [Cursor.followedBy, List.cons_append] at stop ⊢
    rw [stop]
    exact .done () (Blank.skipLine ⟨offset, '/' :: '/' :: rest⟩)
  · next rest =>
    rw [closes, escapes] at enclosed
    cases ends : Blank.blockEndFrom false (offset + 2) rest with
    | none =>
      rw [Blank.escapes_of_open ends] at enclosed
      cases enclosed
    | some found =>
      obtain ⟨crosses, stop⟩ := found
      simp only [List.cons_append, Blank.blockEnd?, ends, Blank.blockEndFrom_lasts ends]
      cases crosses with
      | true => exact .done () stop
      | false =>
        apply Reply.Matches.miss
        rintro rfl
        simp
  · next empty brace parenthesis semicolon line comment block =>
    have nonempty : characters ≠ [] := fun same => empty same
    obtain ⟨next, rest, rfl⟩ := List.exists_cons_of_ne_nil nonempty
    dsimp only [List.cons_append]
    split
    · next same => cases same
    · next same => exact (brace rest (by rw [(List.cons.inj same).1])).elim
    · next same => exact (parenthesis rest (by rw [(List.cons.inj same).1])).elim
    · next same => exact (semicolon rest (by rw [(List.cons.inj same).1])).elim
    · next same => exact (line rest (by rw [(List.cons.inj same).1])).elim
    · next same =>
      obtain ⟨rfl, after⟩ := List.cons.inj same
      have single : ∀ more, rest ≠ '/' :: more := fun more pair => comment more (by rw [pair])
      exact (newLine.absent (by decide) single after).elim
    · next same =>
      obtain ⟨rfl, after⟩ := List.cons.inj same
      have single : ∀ more, rest ≠ '*' :: more := fun more pair => block more (by rw [pair])
      exact (newLine.absent (by decide) single after).elim
    · apply Reply.Matches.miss
      rintro rfl
      simp

theorem statementEnd_balanced : BalancedToken tail limit 0 statementEnd :=
  fun depth => tracks_of (statementEnd_settled depth) fun _ => statementEnd_alike

/-! ### Literals -/

theorem quotedBody_tracks (depth : Nat) :
    Tracks tail limit (escapes .quoted depth) (skip skipQuotedBody) (skip skipQuotedBody)
      (fun _ => 0) fun _ => escapes .quoted depth := by
  apply skip_tracks
  · intro start
    exact ⟨reaches_skipQuotedBody start, escapes_skipQuotedBody depth start⟩
  · intro start _ enclosed
    exact skipQuotedBody_followedBy enclosed

theorem verbatim_tracks (delimiter : Char) (depth : Nat) :
    Tracks tail limit (escapes (.verbatim delimiter) depth) (takeWhile (· ≠ delimiter))
      (takeWhile (· ≠ delimiter)) (fun _ => 0) fun _ => escapes (.verbatim delimiter) depth := by
  apply skip_tracks
  · intro start
    exact ⟨Cursor.reaches_skipWhile _ start, escapes_skipWhileFrom delimiter depth _ _⟩
  · intro start _ enclosed
    exact skipWhileFrom_followedBy_of_escapes start.offset start.rest enclosed

theorem satisfy_tracks {delimiter : Char} (depth : Nat) (other : predicate delimiter = false) :
    Tracks tail limit (escapes (.verbatim delimiter) depth) (satisfy predicate) (satisfy predicate)
      (fun _ => 1) fun _ => escapes (.verbatim delimiter) depth := by
  apply move_tracks
  · intro start rest found
    refine ⟨Cursor.reaches_of_afterChar? found, ?_⟩
    obtain ⟨next, holds, text⟩ := Cursor.of_afterChar? found
    have different : next ≠ delimiter := by
      rintro rfl
      rw [other] at holds
      cases holds
    rw [text, escapes_verbatim different]
  · intro start _ enclosed
    exact Cursor.afterChar?_followedBy predicate tail (rest_ne_nil rfl enclosed)

theorem stringText_balanced : BalancedToken tail limit 1
    ((do tag "\""; skip skipQuotedBody; tag "\"")
      <|> (do tag "`"; takeWhile (· ≠ '`'); tag "`")) := by
  intro depth
  apply orElse_tracks
  · intro first short
    apply TracksFrom.bind (tag_tracks (.single rfl (fun rest => rfl) (by decide))) (.refl first _)
      (first.below _)
    intro _ rest led
    apply TracksFrom.bind (quotedBody_tracks depth) led (first.below _)
    intro _ rest led
    exact .call (tag_tracks (.single rfl (fun rest => rfl) (by decide))) led (first.below _)
      (fun _ => by omega) fun _ => rfl
  · intro first short
    apply TracksFrom.bind (tag_tracks (.single rfl (fun rest => rfl) (by decide))) (.refl first _)
      (first.below _)
    intro _ rest led
    apply TracksFrom.bind (verbatim_tracks '`' depth) led (first.below _)
    intro _ rest led
    exact .call (tag_tracks (.single rfl (fun rest => rfl) (by decide))) led (first.below _)
      (fun _ => by omega) fun _ => rfl

theorem runeText_balanced : BalancedToken tail limit 1
    (do
      tag "'"
      (do tag "\\"; takeWhile1 (· ≠ '\''))
        <|> satisfy (fun next => next ≠ '\'' && next ≠ '\\' && next ≠ '\n')
      tag "'") := by
  apply Balanced.of_from
  intro depth first short led
  have inside : Tracks tail limit (escapes (.verbatim '\'') depth)
      ((do tag "\\"; takeWhile1 (· ≠ '\''))
        <|> satisfy (fun next => next ≠ '\'' && next ≠ '\\' && next ≠ '\n'))
      ((do tag "\\"; takeWhile1 (· ≠ '\''))
        <|> satisfy (fun next => next ≠ '\'' && next ≠ '\\' && next ≠ '\n'))
      (fun _ => 1) fun _ => escapes (.verbatim '\'') depth := by
    apply orElse_tracks
    · intro first short
      apply TracksFrom.bind (tag_tracks (.single rfl (fun rest => escapes_verbatim (by decide) _ _)
        (by decide)))
        (.refl first _) (first.below _)
      intro _ rest led
      apply TracksFrom.bind (satisfy_tracks depth rfl) led (first.below _)
      intro _ rest led
      exact .call (verbatim_tracks '\'' depth) led (first.below _) (fun _ => by omega) fun _ => rfl
    · exact satisfy_tracks depth rfl
  apply TracksFrom.bind (tag_tracks (.single rfl (fun rest => rfl) (by decide))) led (first.below _)
  intro _ rest led
  apply TracksFrom.bind inside led (by omega)
  intro _ rest led
  exact .call (tag_tracks (.single rfl (fun rest => rfl) (by decide))) led (first.below _)
    (fun _ => by omega) fun _ => rfl

theorem basedInteger_plain : PlainToken tail limit 1 basedInteger := by
  apply Plain.of_from
  intro depth first short led
  apply TracksFrom.bind (tag_tracks (.plain (by decide))) led (first.below _)
  intro _ rest led
  apply TracksFrom.bind (satisfy_plain (by decide) depth) led (first.below _)
  intro _ rest led
  exact .call (takeWhile1_plain (by decide) depth) led (first.below _) (fun _ => by omega)
    fun _ => rfl

theorem fraction_plain : PlainToken tail limit 1 (do tag "."; takeWhile isDigitOrSeparator) := by
  apply Plain.of_from
  intro depth first short led
  apply TracksFrom.bind (tag_tracks (.plain (by decide))) led (first.below _)
  intro _ rest led
  exact .call (takeWhile_plain (by decide) depth) led (first.below _) (fun _ => by omega)
    fun _ => rfl

theorem exponent_plain : PlainToken tail limit 1
    (do
      satisfy fun next => next == 'e' || next == 'E'
      let _ ← optional (satisfy fun next => next == '+' || next == '-')
      takeWhile1 isDecimalDigit) := by
  apply Plain.of_from
  intro depth first short led
  apply TracksFrom.bind (satisfy_plain (by decide) depth) led (first.below _)
  intro _ rest led
  apply TracksFrom.bind (skipOptional_tracks (satisfy_plain (by decide) depth)) led (first.below _)
  intro _ rest led
  exact .call (takeWhile1_plain (by decide) depth) led (first.below _) (fun _ => by omega)
    fun _ => rfl

theorem wholeNumber_plain : PlainToken tail limit 1
    (do
      satisfy isDecimalDigit
      takeWhile isDigitOrSeparator
      let _ ← optional (do tag "."; takeWhile isDigitOrSeparator)) := by
  apply Plain.of_from
  intro depth first short led
  apply TracksFrom.bind (satisfy_plain (by decide) depth) led (first.below _)
  intro _ rest led
  apply TracksFrom.bind (takeWhile_plain (by decide) depth) led (first.below _)
  intro _ rest led
  apply TracksFrom.bind (skipOptional_tracks (fraction_plain depth)) led (first.below _)
  intro _ rest led
  exact .pure led (by omega) rfl

theorem pointNumber_plain : PlainToken tail limit 1 (do tag "."; takeWhile1 isDecimalDigit) := by
  apply Plain.of_from
  intro depth first short led
  apply TracksFrom.bind (tag_tracks (.plain (by decide))) led (first.below _)
  intro _ rest led
  exact .call (takeWhile1_plain (by decide) depth) led (first.below _) (fun _ => by omega)
    fun _ => rfl

theorem decimalNumber_plain : PlainToken tail limit 1 decimalNumber := by
  apply Plain.of_from
  intro depth first short led
  apply TracksFrom.bind (orElse_tracks (wholeNumber_plain depth) (pointNumber_plain depth)) led
    (first.below _)
  intro _ rest led
  apply TracksFrom.bind (skipOptional_tracks (exponent_plain depth)) led (first.below _)
  intro _ rest led
  apply TracksFrom.bind (skipOptional_tracks (tag_tracks (.plain (by decide)))) led (first.below _)
  intro _ rest led
  exact .pure led (by omega) rfl

theorem numberText_plain : PlainToken tail limit 1 (basedInteger <|> decimalNumber) := fun depth =>
  orElse_tracks (basedInteger_plain depth) (decimalNumber_plain depth)

theorem numberLiteral_plain : PlainToken tail limit 1 numberLiteral := by
  apply Plain.of_from
  intro depth first short led
  apply TracksFrom.bind (recognize_tracks (numberText_plain depth)) led (first.below _)
  rintro ⟨text, span⟩ rest led
  exact .pure led (by omega) rfl

end Parser

end Unclosed.Grammar
