import Unclosed.Proofs.SkippedBlanks

/-!
Brackets that a text leaves to close.  A scan that passes over comments, strings
and runes counts brackets.  A text *closes* a number of brackets when, besides
all that it opens itself, it closes so many more.  Reading a token or a blank
does not change this count, and the place of the closing bracket is not seen
from behind: what is appended on a new line cannot change how blanks before the
bracket are skipped.
-/

namespace Unclosed.Grammar

variable {next character delimiter : Char} {crossed : Bool} {offset depth : Nat}
  {characters word : List Char} {stop start : Cursor} {predicate : Char → Bool}
  {characters tail : List Char}

/-! ### Counting brackets -/

def marks : List Char :=
  ['\n', '/', '"', '`', '\'', '(', '[', '\x7b', ')', ']', '\x7d']

/-- What holds of all characters of a list is decided along the list, not over all characters. -/
instance (priority := 1100) decidableForallMem (predicate : Char → Prop)
    [DecidablePred predicate] (characters : List Char) :
    Decidable (∀ character ∈ characters, predicate character) :=
  List.decidableBAll predicate characters

def isOpening (character : Char) : Bool :=
  character == '(' || character == '[' || character == '\x7b'

def isClosing (character : Char) : Bool :=
  character == ')' || character == ']' || character == '\x7d'

/-- What a scan of brackets is in. -/
inductive Zone where
  | code
  | lineComment
  | blockComment
  | quoted
  | verbatim (delimiter : Char)

def Zone.behind (character : Char) : Zone :=
  if character = '"' then .quoted
  else if character = '`' then .verbatim '`'
  else if character = '\'' then .verbatim '\''
  else .code

/-- A bracket is closed that encloses this place at the given depth. -/
def escapes : Zone → Nat → List Char → Bool
  | _, _, [] => false
  | .code, depth, '/' :: '/' :: rest => escapes .lineComment depth rest
  | .code, depth, '/' :: '*' :: rest => escapes .blockComment depth rest
  | .code, depth, next :: rest =>
    if isOpening next then escapes .code (depth + 1) rest
    else if isClosing next then depth == 0 || escapes .code (depth - 1) rest
    else escapes (.behind next) depth rest
  | .lineComment, depth, next :: rest =>
    escapes (if next = '\n' then .code else .lineComment) depth rest
  | .blockComment, depth, '*' :: '/' :: rest => escapes .code depth rest
  | .blockComment, depth, _ :: rest => escapes .blockComment depth rest
  | .quoted, depth, '\\' :: _ :: rest => escapes .quoted depth rest
  | .quoted, depth, next :: rest =>
    escapes (if next = '"' then .code else .quoted) depth rest
  | .verbatim delimiter, depth, next :: rest =>
    escapes (if next = delimiter then .code else .verbatim delimiter) depth rest

def closes : Nat → List Char → Bool
  | 0, _ => true
  | depth + 1, text => escapes .code depth text

attribute [local simp] escapes in
theorem escapes_plain (plain : next ∉ marks) (depth : Nat) (rest : List Char) :
    escapes .code depth (next :: rest) = escapes .code depth rest := by
  simp only [marks, List.mem_cons, List.not_mem_nil, or_false, not_or] at plain
  rw [escapes] <;> simp_all [isOpening, isClosing, Zone.behind]

theorem escapes_slash {rest : List Char} (line : ∀ more, rest ≠ '/' :: more)
    (block : ∀ more, rest ≠ '*' :: more) (depth : Nat) :
    escapes .code depth ('/' :: rest) = escapes .code depth rest := by
  rw [escapes]
  · rfl
  · intro more _ same
    exact line more same
  · intro more _ same
    exact block more same

theorem escapes_newLine (depth : Nat) (rest : List Char) :
    escapes .code depth ('\n' :: rest) = escapes .code depth rest := by
  rw [escapes]
  · rfl
  · intro more impossible
    cases impossible
  · intro more impossible
    cases impossible

theorem closes_plain (plain : next ∉ marks) (depth : Nat) (rest : List Char) :
    closes depth (next :: rest) = closes depth rest := by
  cases depth with
  | zero => rfl
  | succ depth => exact escapes_plain plain depth rest

theorem closes_newLine (depth : Nat) (rest : List Char) :
    closes depth ('\n' :: rest) = closes depth rest := by
  cases depth with
  | zero => rfl
  | succ depth => exact escapes_newLine depth rest

theorem closes_nil (depth : Nat) : closes (depth + 1) [] = false := rfl

theorem closes_opening (opening : isOpening next = true) (depth : Nat) (rest : List Char) :
    closes (depth + 1) (next :: rest) = closes (depth + 2) rest := by
  simp only [isOpening, Bool.or_eq_true, beq_iff_eq] at opening
  rcases opening with (rfl | rfl) | rfl <;> simp [closes, escapes, isOpening]

theorem closes_closing (closing : isClosing next = true) (depth : Nat) (rest : List Char) :
    closes (depth + 1) (next :: rest) = closes depth rest := by
  simp only [isClosing, Bool.or_eq_true, beq_iff_eq] at closing
  rcases closing with (rfl | rfl) | rfl <;> cases depth <;>
    simp [closes, escapes, isOpening, isClosing]

/-! ### Blanks -/

namespace Blank

theorem not_mem_marks_of_isLineSpace (space : isLineSpace character = true) :
    character ∉ marks := by
  simp only [isLineSpace, Bool.or_eq_true, beq_iff_eq] at space
  rcases space with (rfl | rfl) | rfl <;> decide

theorem escapes_space (space : isSpace character = true) (depth : Nat) (rest : List Char) :
    escapes .code depth (character :: rest) = escapes .code depth rest := by
  rw [isSpace, ← isLineSpace, Bool.or_eq_true, beq_iff_eq] at space
  rcases space with space | rfl
  · exact escapes_plain (not_mem_marks_of_isLineSpace space) depth rest
  · exact escapes_newLine depth rest

/-- A line comment ends before its line does. -/
theorem escapes_skipLine (depth offset : Nat) (characters : List Char) :
    escapes .code depth (Cursor.skipWhileFrom (· ≠ '\n') offset characters).rest
      = escapes .lineComment depth characters := by
  fun_induction Cursor.skipWhileFrom (fun next => decide (next ≠ '\n')) offset characters with
  | case1 => rfl
  | case2 offset next rest other ih =>
    rw [ih, escapes, if_neg (by simpa using other)]
  | case3 offset next rest line =>
    have same : next = '\n' := by simpa using line
    rw [same, escapes_newLine, escapes, if_pos rfl]

theorem closes_skipLine (depth offset : Nat) (rest : List Char) :
    closes depth (skipLine ⟨offset, '/' :: '/' :: rest⟩).rest
      = closes depth ('/' :: '/' :: rest) := by
  cases depth with
  | zero => rfl
  | succ depth => exact escapes_skipLine depth _ rest

theorem escapes_of_blockEndFrom {crosses : Bool}
    (found : blockEndFrom crossed offset characters = some (crosses, stop)) (depth : Nat) :
    escapes .blockComment depth characters = escapes .code depth stop.rest := by
  fun_induction blockEndFrom crossed offset characters with
  | case1 =>
    cases found
    rw [escapes]
  | case2 crossed offset next rest inside ih =>
    rw [escapes]
    · exact ih found
    · exact inside
  | case3 => cases found

/-- A block comment that does not end hides all brackets. -/
theorem escapes_of_open (unended : blockEndFrom crossed offset characters = none) (depth : Nat) :
    escapes .blockComment depth characters = false := by
  fun_induction blockEndFrom crossed offset characters with
  | case1 => cases unended
  | case2 crossed offset next rest inside ih =>
    rw [escapes]
    · exact ih unended
    · exact inside
  | case3 => rfl

/-- Skipping keeps the count.  A block comment that does not end is not skipped. -/
theorem Skips.closes_eq {lines : Bool} (skips : Skips lines start stop) (depth : Nat) :
    closes depth stop.rest = closes depth start.rest := by
  cases depth with
  | zero => rfl
  | succ depth =>
    induction skips with
    | stay _ => rfl
    | space blank _ ih =>
      exact ih.trans (escapes_space (isSpace_iff.mpr (blank.imp_right And.right)) _ _).symm
    | @line offset rest _ _ _ ih => exact ih.trans (escapes_skipLine depth (offset + 2) rest)
    | block ends _ _ ih => exact ih.trans (escapes_of_blockEndFrom ends depth).symm

theorem closes_skip (depth : Nat) (start : Cursor) :
    closes depth (skip start).rest = closes depth start.rest :=
  (skips_skip start).closes_eq depth

theorem closes_skipInLine (depth : Nat) (start : Cursor) :
    closes depth (skipInLine start).rest = closes depth start.rest :=
  (skips_skipInLine start).closes_eq depth

/-- Blanks between brackets end before something solid. -/
theorem solid_skip_of_closes (enclosed : closes (depth + 1) start.rest = true) :
    solid (skip start).rest = true := by
  rw [← closes_skip] at enclosed
  have stays := (skips_skip start).stays
  generalize skip start = stop at enclosed stays
  cases stays with
  | atEnd offset => cases enclosed
  | solid stops => exact stops
  | lineEnd inLine _ _ => cases inLine
  | lineComment inLine _ _ => cases inLine
  | @blockComment offset rest left =>
    have unended : blockEnd? ⟨offset + 2, rest⟩ = none := by
      cases ends : blockEnd? ⟨offset + 2, rest⟩ with
      | none => rfl
      | some found => cases (left found.1 found.2 ends).2
    cases (escapes_of_open unended depth).symm.trans enclosed

theorem skip_followedBy (newLine : NewLine tail) (enclosed : closes (depth + 1) start.rest = true) :
    skip (start.followedBy tail) = (skip start).followedBy tail :=
  skip_followedBy_of_solid newLine (solid_skip_of_closes enclosed)

end Blank

/-! ### Runs of characters -/

namespace Cursor

theorem closes_skipWhileFrom (plain : ∀ character, predicate character = true → character ∉ marks)
    (depth offset : Nat) (characters : List Char) :
    closes depth (skipWhileFrom predicate offset characters).rest = closes depth characters := by
  fun_induction skipWhileFrom predicate offset characters with
  | case1 => rfl
  | case2 offset next rest holds ih =>
    rw [ih, closes_plain (plain next holds)]
  | case3 => rfl

theorem of_afterChar? (found : afterChar? predicate start = some stop) :
    ∃ next, predicate next = true ∧ start.rest = next :: stop.rest := by
  unfold afterChar? at found
  split at found
  · next offset next characters =>
    split at found
    · next holds =>
      cases found
      exact ⟨next, holds, rfl⟩
    · cases found
  · cases found

theorem afterChar?_followedBy (predicate : Char → Bool) (tail : List Char)
    (nonempty : start.rest ≠ []) :
    afterChar? predicate (start.followedBy tail)
      = (afterChar? predicate start).map (followedBy tail) := by
  obtain ⟨offset, characters⟩ := start
  cases characters with
  | nil => exact absurd rfl nonempty
  | cons next rest =>
    simp only [followedBy, List.cons_append, afterChar?]
    split <;> rfl

theorem afterChars?_followedBy (newLine : NewLine tail) (inLine : '\n' ∉ word) (start : Cursor) :
    afterChars? word (start.followedBy tail) = (afterChars? word start).map (followedBy tail) := by
  fun_induction afterChars? word start with
  | case1 start => simp [afterChars?]
  | case2 more offset next rest ih =>
    simp only [List.mem_cons, not_or] at inLine
    simpa [followedBy, afterChars?] using ih inLine.2
  | case3 wanted more offset next rest different =>
    simp [followedBy, afterChars?, different]
  | case4 wanted more offset =>
    cases tail with
    | nil => rfl
    | cons next rest =>
      cases newLine next rest rfl
      have different : wanted ≠ '\n' := fun same => inLine (by simp [same])
      simp [followedBy, afterChars?, different]

theorem after?_followedBy (newLine : NewLine tail) {word : String}
    (inLine : '\n' ∉ word.toList) (start : Cursor) :
    (start.followedBy tail).after? word = (start.after? word).map (followedBy tail) :=
  afterChars?_followedBy newLine inLine start

theorem startsWith_followedBy (newLine : NewLine tail) {word : String}
    (inLine : '\n' ∉ word.toList) (start : Cursor) :
    (start.followedBy tail).startsWith word = start.startsWith word := by
  rw [startsWith, after?_followedBy newLine inLine, Option.isSome_map, startsWith]

theorem text_of_afterChars? (found : afterChars? word start = some stop) :
    start.rest = word ++ stop.rest := by
  fun_induction afterChars? word start with
  | case1 start =>
    cases found
    rfl
  | case2 more offset next rest ih =>
    rw [List.cons_append, ← ih found]
  | case3 => cases found
  | case4 => cases found

theorem text_of_after? {word : String} (found : start.after? word = some stop) :
    start.rest = word.toList ++ stop.rest :=
  text_of_afterChars? found

theorem closes_of_afterChars? (plain : ∀ character ∈ word, character ∉ marks)
    (found : afterChars? word start = some stop) (depth : Nat) :
    closes depth stop.rest = closes depth start.rest := by
  fun_induction afterChars? word start with
  | case1 start =>
    cases found
    rfl
  | case2 more offset next rest ih =>
    rw [ih (fun character member => plain character (by simp [member])) found,
      closes_plain (plain next (by simp))]
  | case3 => cases found
  | case4 => cases found

end Cursor

/-! ### Strings -/

theorem escapes_of_quotedBodyFrom (found : quotedBodyFrom offset characters = some stop)
    (depth : Nat) :
    escapes .quoted depth stop.rest = escapes .quoted depth characters := by
  fun_induction quotedBodyFrom offset characters with
  | case1 | case4 =>
    cases found
    rfl
  | case2 => cases found
  | case3 offset escaped more ih =>
    rw [escapes]
    exact ih found
  | case5 offset next more single pair goesOn ih =>
    have other : next ≠ '"' := by
      rintro rfl
      simp at goesOn
    rw [escapes, if_neg other]
    · exact ih found
    · exact pair

theorem escapes_skipQuotedBody (depth : Nat) (start : Cursor) :
    escapes .quoted depth (skipQuotedBody start).rest = escapes .quoted depth start.rest := by
  unfold skipQuotedBody
  cases found : quotedBodyFrom start.offset start.rest with
  | none => rfl
  | some stop => exact escapes_of_quotedBodyFrom found depth

/-- Outside of escapes a quoted text is read character by character. -/
theorem quotedBodyFrom_cons (unescaped : next ≠ '\\') (offset : Nat) (rest : List Char) :
    quotedBodyFrom offset (next :: rest) =
      if next = '"' || next = '\n' then some ⟨offset, next :: rest⟩
      else quotedBodyFrom (offset + next.utf8Size) rest := by
  rw [quotedBodyFrom]
  · intro escaped
    exact absurd escaped unescaped
  · intro _ _ escaped
    exact absurd escaped unescaped

theorem quotedBodyFrom_lasts (found : quotedBodyFrom offset characters = some stop)
    (closed : stop.rest ≠ []) :
    quotedBodyFrom offset (characters ++ tail) = some (stop.followedBy tail) := by
  fun_induction quotedBodyFrom offset characters with
  | case1 offset =>
    cases found
    exact absurd rfl closed
  | case2 => cases found
  | case3 offset escaped more ih =>
    simpa [quotedBodyFrom] using ih found
  | case4 offset next more single pair ends =>
    cases found
    have unescaped : next ≠ '\\' := by
      rintro rfl
      simp at ends
    rw [List.cons_append, quotedBodyFrom_cons unescaped, if_pos ends]
    rfl
  | case5 offset next more single pair goesOn ih =>
    have unescaped : next ≠ '\\' := by
      rintro rfl
      cases more with
      | nil => exact single rfl rfl
      | cons escaped more => exact pair escaped more rfl rfl
    rw [List.cons_append, quotedBodyFrom_cons unescaped, if_neg goesOn]
    exact ih found

theorem escapes_of_unread (unread : quotedBodyFrom offset characters = none) (depth : Nat) :
    escapes .quoted depth characters = false := by
  fun_induction quotedBodyFrom offset characters with
  | case1 => rfl
  | case2 => rfl
  | case3 offset escaped more ih =>
    rw [escapes]
    exact ih unread
  | case4 => cases unread
  | case5 offset next more single pair goesOn ih =>
    have other : next ≠ '"' := by
      rintro rfl
      simp at goesOn
    rw [escapes, if_neg other]
    · exact ih unread
    · exact pair

theorem skipQuotedBody_followedBy (enclosed : escapes .quoted depth start.rest = true) :
    skipQuotedBody (start.followedBy tail) = (skipQuotedBody start).followedBy tail := by
  rw [skipQuotedBody, skipQuotedBody, Cursor.followedBy]
  cases found : quotedBodyFrom start.offset start.rest with
  | none =>
    rw [escapes_of_unread found] at enclosed
    cases enclosed
  | some stop =>
    rw [← escapes_of_quotedBodyFrom found] at enclosed
    rw [quotedBodyFrom_lasts found fun empty => by rw [empty] at enclosed; cases enclosed]
    rfl

theorem escapes_verbatim (other : next ≠ delimiter) (depth : Nat) (rest : List Char) :
    escapes (.verbatim delimiter) depth (next :: rest)
      = escapes (.verbatim delimiter) depth rest := by
  rw [escapes, if_neg other]

theorem escapes_skipWhileFrom (delimiter : Char) (depth offset : Nat) (characters : List Char) :
    escapes (.verbatim delimiter) depth
        (Cursor.skipWhileFrom (· ≠ delimiter) offset characters).rest
      = escapes (.verbatim delimiter) depth characters := by
  fun_induction Cursor.skipWhileFrom (fun next => decide (next ≠ delimiter)) offset characters with
  | case1 => rfl
  | case2 offset next more other ih =>
    rw [ih, escapes_verbatim (by simpa using other)]
  | case3 => rfl

theorem skipWhileFrom_lasts (stops : (Cursor.skipWhileFrom predicate offset characters).rest ≠ []) :
    Cursor.skipWhileFrom predicate offset (characters ++ tail)
      = (Cursor.skipWhileFrom predicate offset characters).followedBy tail := by
  fun_induction Cursor.skipWhileFrom predicate offset characters with
  | case1 => exact absurd rfl stops
  | case2 offset next rest holds ih =>
    rw [List.cons_append, Cursor.skipWhileFrom, if_pos holds]
    exact ih stops
  | case3 offset next rest fails =>
    rw [List.cons_append, Cursor.skipWhileFrom, if_neg fails]
    rfl

theorem skipWhileFrom_followedBy_of_escapes (offset : Nat) (characters : List Char)
    (enclosed : escapes (.verbatim delimiter) depth characters = true) :
    Cursor.skipWhileFrom (· ≠ delimiter) offset (characters ++ tail)
      = (Cursor.skipWhileFrom (· ≠ delimiter) offset characters).followedBy tail := by
  rw [← escapes_skipWhileFrom delimiter depth offset] at enclosed
  exact skipWhileFrom_lasts fun empty => by rw [empty] at enclosed; cases enclosed

end Unclosed.Grammar
