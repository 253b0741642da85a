import Unclosed.Proofs.ReachedPlaces

/-!
What a scan over blanks does.  It goes from piece to piece, over a blank or a comment at a
time, and stays where no piece starts.  A scan on one line leaves line ends, line comments
and block comments that cross a line end.
-/

namespace Unclosed.Grammar

variable {next : Char} {crossed crosses : Bool} {stop : Cursor} {offset : Nat}
  {characters tail more : List Char}

namespace Blank

open Cursor

def solid : List Char → Bool
  | [] | '/' :: '/' :: _ | '/' :: '*' :: _ => false
  | next :: _ => !isSpace next

theorem solid_cons (rest : List Char) (visible : (next != '/' && !isSpace next) = true) :
    solid (next :: rest) = true := by
  simp only [Bool.and_eq_true, bne_iff_ne, ne_eq] at visible
  rw [solid]
  · exact visible.2
  · intro _ slash
    exact absurd slash visible.1
  · intro _ slash
    exact absurd slash visible.1

theorem utf8Size_of_isSpace {character : Char} (space : isSpace character = true) :
    character.utf8Size = 1 := by
  simp only [isSpace, Bool.or_eq_true, beq_iff_eq] at space
  rcases space with ((rfl | rfl) | rfl) | rfl <;> rfl

/-! ### Pieces -/

section Pieces

variable {next : Char} {start : Cursor} (offset : Nat) (rest characters : List Char)

theorem skip_space (space : isSpace next = true) :
    skip ⟨offset, next :: rest⟩ = skip ⟨offset + 1, rest⟩ := by
  rw [skip, skipFrom, if_pos space]
  · rfl
  · rintro more rfl
    cases space
  · rintro more rfl
    cases space

theorem skip_of_solid (stops : solid start.rest = true) : skip start = start := by
  obtain ⟨offset, characters⟩ := start
  unfold skip
  revert stops
  fun_cases solid characters with
  | case1 => simp
  | case2 => simp
  | case3 => simp
  | case4 next rest line block =>
    intro visible
    rw [skipFrom, if_neg]
    · simpa using visible
    · exact line
    · exact block

theorem skip_line : skip ⟨offset, '/' :: '/' :: rest⟩ = skip (skipLine ⟨offset + 2, rest⟩) := by
  change skipFrom .lineComment (offset + 2) rest = skip (skipWhileFrom (· ≠ '\n') (offset + 2) rest)
  generalize offset + 2 = offset
  fun_induction skipWhileFrom (fun next => decide (next ≠ '\n')) offset rest with
  | case1 => rfl
  | case2 offset next rest inLine ih =>
    rw [skipFrom, if_neg (by simpa using inLine)]
    exact ih
  | case3 offset next rest ends =>
    obtain rfl : next = '\n' := by simpa using ends
    rfl

theorem skipFrom_comment (crossed : Bool) :
    skipFrom (.blockComment start) offset characters =
      ((blockEndFrom crossed offset characters).map fun found => skip found.2).getD start := by
  fun_induction blockEndFrom crossed offset characters with
  | case1 => rfl
  | case2 crossed offset next rest inside ih =>
    rw [skipFrom]
    · exact ih
    · exact inside
  | case3 => rfl

theorem skip_block :
    skip ⟨offset, '/' :: '*' :: rest⟩ =
      ((blockEnd? ⟨offset + 2, rest⟩).map fun found => skip found.2).getD
        ⟨offset, '/' :: '*' :: rest⟩ :=
  skipFrom_comment (offset + 2) rest false

theorem skipInLine_space (space : isLineSpace next = true) :
    skipInLine ⟨offset, next :: rest⟩ = skipInLine ⟨offset + 1, rest⟩ := by
  rw [skipInLine, skipInLineFrom, if_pos space]
  · rfl
  · rintro more rfl
    cases space

theorem crosses_of_blockEndFrom
    (found : blockEndFrom crossed offset characters = some (crosses, stop))
    (already : crossed = true) : crosses = true := by
  fun_induction blockEndFrom crossed offset characters with
  | case1 =>
    cases found
    exact already
  | case2 crossed offset next rest _ ih => exact ih found (by rw [already, Bool.true_or])
  | case3 => cases found

theorem skipInLineFrom_comment (inLine : crossed = false) :
    skipInLineFrom (some start) offset characters =
      match blockEndFrom crossed offset characters with
      | some (false, behind) => skipInLine behind
      | _ => start := by
  fun_induction blockEndFrom crossed offset characters with
  | case1 crossed offset rest =>
    rw [inLine]
    rfl
  | case2 crossed offset next rest inside ih =>
    rw [skipInLineFrom]
    · by_cases line : next = '\n'
      · rw [if_pos line]
        split
        · next found => cases crosses_of_blockEndFrom _ _ found (by simp [line])
        · rfl
      · rw [if_neg line]
        exact ih (by simp [inLine, line])
    · exact inside
  | case3 => rfl

theorem skipInLine_block :
    skipInLine ⟨offset, '/' :: '*' :: rest⟩ =
      match blockEnd? ⟨offset + 2, rest⟩ with
      | some (false, behind) => skipInLine behind
      | _ => ⟨offset, '/' :: '*' :: rest⟩ :=
  skipInLineFrom_comment (offset + 2) rest rfl

end Pieces

/-! ### Runs -/

inductive Stays (lines : Bool) : Cursor → Prop where
  | atEnd (offset : Nat) : Stays lines ⟨offset, []⟩
  | solid {start : Cursor} (stops : solid start.rest = true) : Stays lines start
  | lineEnd (inLine : lines = false) (offset : Nat) (rest : List Char) :
      Stays lines ⟨offset, '\n' :: rest⟩
  | lineComment (inLine : lines = false) (offset : Nat) (rest : List Char) :
      Stays lines ⟨offset, '/' :: '/' :: rest⟩
  | blockComment {offset : Nat} {rest : List Char}
      (left : ∀ crosses behind, blockEnd? ⟨offset + 2, rest⟩ = some (crosses, behind) →
        crosses = true ∧ lines = false) :
      Stays lines ⟨offset, '/' :: '*' :: rest⟩

inductive Skips (lines : Bool) : Cursor → Cursor → Prop where
  | stay {start : Cursor} (stays : Stays lines start) : Skips lines start start
  | space {offset : Nat} {next : Char} {rest : List Char} {stop : Cursor}
      (blank : isLineSpace next = true ∨ lines = true ∧ next = '\n')
      (later : Skips lines ⟨offset + 1, rest⟩ stop) : Skips lines ⟨offset, next :: rest⟩ stop
  | line {offset : Nat} {rest : List Char} {stop : Cursor} (across : lines = true)
      (later : Skips lines (skipLine ⟨offset + 2, rest⟩) stop) :
      Skips lines ⟨offset, '/' :: '/' :: rest⟩ stop
  | block {offset : Nat} {rest : List Char} {crosses : Bool} {behind stop : Cursor}
      (ends : blockEnd? ⟨offset + 2, rest⟩ = some (crosses, behind))
      (across : crosses = true → lines = true) (later : Skips lines behind stop) :
      Skips lines ⟨offset, '/' :: '*' :: rest⟩ stop

theorem isSpace_iff : isSpace next = true ↔ isLineSpace next = true ∨ next = '\n' := by
  rw [isSpace, ← isLineSpace, Bool.or_eq_true, beq_iff_eq]

theorem skips_skip (start : Cursor) : Skips true start (skip start) := by
  obtain ⟨offset, characters⟩ := start
  fun_cases solid characters with
  | case1 => exact .stay (.atEnd offset)
  | case2 rest =>
    have shorter : (skipLine ⟨offset + 2, rest⟩).rest.length ≤ rest.length :=
      (reaches_skipWhile _ _).length_le
    rw [skip_line]
    exact .line rfl (skips_skip _)
  | case3 rest =>
    rw [skip_block]
    cases ends : blockEnd? ⟨offset + 2, rest⟩ with
    | none => exact .stay (.blockComment (by simp [ends]))
    | some found =>
      have shorter := (reaches_of_blockEndFrom ends).length_le
      exact .block ends (fun _ => rfl) (skips_skip found.2)
  | case4 next rest line block =>
    by_cases space : isSpace next = true
    · rw [skip_space offset rest space]
      exact .space ((isSpace_iff.mp space).imp_right fun same => ⟨rfl, same⟩) (skips_skip _)
    · have stops : solid (next :: rest) = true := by
        rw [solid]
        · simpa using space
        · exact line
        · exact block
      rw [skip_of_solid stops]
      exact .stay (.solid stops)
termination_by start.rest.length
decreasing_by all_goals simp_all <;> omega

theorem skips_skipInLine (start : Cursor) : Skips false start (skipInLine start) := by
  obtain ⟨offset, characters⟩ := start
  fun_cases solid characters with
  | case1 => exact .stay (.atEnd offset)
  | case2 rest => exact .stay (.lineComment rfl offset rest)
  | case3 rest =>
    rw [skipInLine_block]
    split
    · next behind ends =>
      have shorter := (reaches_of_blockEndFrom ends).length_le
      exact .block ends (by simp) (skips_skipInLine behind)
    · next other =>
      refine .stay (.blockComment fun crosses behind ends => ⟨?_, rfl⟩)
      cases crosses with
      | true => rfl
      | false => exact absurd ends (other behind)
  | case4 next rest line block =>
    by_cases space : isLineSpace next = true
    · rw [skipInLine_space offset rest space]
      exact .space (.inl space) (skips_skipInLine _)
    · have stops : skipInLine ⟨offset, next :: rest⟩ = ⟨offset, next :: rest⟩ := by
        rw [skipInLine, skipInLineFrom, if_neg space]
        exact block
      rw [stops]
      by_cases ends : next = '\n'
      · cases ends
        exact .stay (.lineEnd rfl offset rest)
      · refine .stay (.solid ?_)
        rw [solid]
        · rw [Bool.not_eq_true', ← Bool.not_eq_true, isSpace_iff]
          exact not_or.mpr ⟨space, ends⟩
        · exact line
        · exact block
termination_by start.rest.length
decreasing_by all_goals simp_all <;> omega

section Runs

variable {lines : Bool} {start stop : Cursor}

theorem Skips.reaches (skips : Skips lines start stop) : start.Reaches 0 stop := by
  induction skips with
  | stay _ => exact .refl _
  | @space offset next rest _ blank _ ih =>
    have step := (Reaches.cons next offset rest).mono (Nat.zero_le 1)
    rw [utf8Size_of_isSpace (isSpace_iff.mpr (blank.imp_right And.right))] at step
    exact step.trans ih
  | line _ _ ih => exact ((Reaches.pair rfl rfl _ _).trans (reaches_skipWhile _ _)).trans ih
  | block ends _ _ ih =>
    exact ((Reaches.pair rfl rfl _ _).trans (reaches_of_blockEndFrom ends)).trans ih

theorem reaches_skip (start : Cursor) : start.Reaches 0 (skip start) := (skips_skip start).reaches

theorem reaches_skipInLine (start : Cursor) : start.Reaches 0 (skipInLine start) :=
  (skips_skipInLine start).reaches

theorem Skips.stays (skips : Skips lines start stop) : Stays lines stop := by
  induction skips with
  | stay stays => exact stays
  | space _ _ ih => exact ih
  | line _ _ ih => exact ih
  | block _ _ _ ih => exact ih

theorem Skips.skip_eq (skips : Skips lines start stop) : skip stop = skip start := by
  induction skips with
  | stay _ => rfl
  | space blank _ ih =>
    rw [ih, skip_space _ _ (isSpace_iff.mpr (blank.imp_right And.right))]
  | line _ _ ih => rw [ih, skip_line]
  | block ends _ _ ih =>
    rw [ih, skip_block, ends]
    rfl

@[simp] theorem skip_skip (start : Cursor) : skip (skip start) = skip start :=
  (skips_skip start).skip_eq

@[simp] theorem skip_skipInLine (start : Cursor) : skip (skipInLine start) = skip start :=
  (skips_skipInLine start).skip_eq

/-- On a line that goes on the two scans stop at one place. -/
theorem skip_eq_skipInLine (stops : solid (skipInLine start).rest = true) :
    skip start = skipInLine start := by
  rw [← skip_skipInLine, skip_of_solid stops]

theorem Skips.skipInLine_eq (skips : Skips false start stop) :
    skipInLine stop = skipInLine start := by
  induction skips with
  | stay _ => rfl
  | space blank _ ih =>
    rcases blank with space | ⟨across, _⟩
    · rw [ih, skipInLine_space _ _ space]
    · cases across
  | line across _ _ => cases across
  | @block _ _ crosses _ _ ends across _ ih =>
    cases crosses with
    | true => cases across rfl
    | false => rw [ih, skipInLine_block, ends]

@[simp] theorem skipInLine_skipInLine (start : Cursor) :
    skipInLine (skipInLine start) = skipInLine start :=
  (skips_skipInLine start).skipInLine_eq

end Runs

/-! ### What a scan skips and where it stops -/

theorem text_of_blockEndFrom (found : blockEndFrom crossed offset characters = some (false, stop)) :
    ∃ skipped, characters = skipped ++ stop.rest ∧ '\n' ∉ skipped := by
  fun_induction blockEndFrom crossed offset characters with
  | case1 =>
    cases found
    exact ⟨['*', '/'], rfl, by decide⟩
  | case2 crossed offset next rest _ ih =>
    obtain ⟨skipped, text, inLine⟩ := ih found
    refine ⟨next :: skipped, by rw [text, List.cons_append], ?_⟩
    rw [List.mem_cons, not_or]
    refine ⟨?_, inLine⟩
    rintro rfl
    cases crosses_of_blockEndFrom _ _ found (by simp)
  | case3 => cases found

/-- A scan on one line skips no line end. -/
theorem Skips.text {start stop : Cursor} (skips : Skips false start stop) :
    ∃ skipped, start.rest = skipped ++ stop.rest ∧ '\n' ∉ skipped := by
  induction skips with
  | stay _ => exact ⟨[], rfl, List.not_mem_nil⟩
  | @space offset next _ _ blank _ ih =>
    obtain ⟨skipped, text, inLine⟩ := ih
    refine ⟨next :: skipped, congrArg (next :: ·) text, ?_⟩
    rw [List.mem_cons, not_or]
    refine ⟨?_, inLine⟩
    rintro rfl
    rcases blank with space | ⟨across, _⟩
    · cases space
    · cases across
  | line across _ _ => cases across
  | @block offset rest crosses _ _ ends across _ ih =>
    cases crosses with
    | true => cases across rfl
    | false =>
      obtain ⟨comment, inside, noLine⟩ := text_of_blockEndFrom ends
      obtain ⟨skipped, text, inLine⟩ := ih
      refine ⟨'/' :: '*' :: (comment ++ skipped), ?_, by simp [noLine, inLine]⟩
      have rest_eq : rest = comment ++ (skipped ++ _) := text ▸ inside
      simp [rest_eq]

theorem blockEndFrom_isSome (crossed : Bool) (offset : Nat) (comment behind : List Char) :
    (blockEndFrom crossed offset (comment ++ '*' :: '/' :: behind)).isSome = true := by
  generalize text : comment ++ '*' :: '/' :: behind = characters
  fun_induction blockEndFrom crossed offset characters generalizing comment with
  | case1 => rfl
  | case2 crossed offset next rest inside ih =>
    cases comment with
    | nil =>
      obtain ⟨rfl, rfl⟩ := List.cons.inj text
      exact absurd rfl (inside behind rfl)
    | cons first comment => exact ih comment (List.cons.inj text).2
  | case3 => simp at text

/-- Behind a scan over line ends stands neither a blank nor a comment, other than
a block comment that does not end. -/
theorem Stays.rest {stop : Cursor} (stays : Stays true stop) :
    (∀ next rest, stop.rest = next :: rest → next ∉ [' ', '\t', '\r', '\n']) ∧
      (∀ rest, stop.rest ≠ '/' :: '/' :: rest) ∧
      ∀ comment behind, stop.rest ≠ '/' :: '*' :: (comment ++ '*' :: '/' :: behind) := by
  cases stays with
  | atEnd offset => simp
  | solid stops =>
    refine ⟨fun next rest text spaces => ?_, fun rest text => ?_, fun comment behind text => ?_⟩
    · rw [text] at stops
      simp only [List.mem_cons, List.not_mem_nil, or_false] at spaces
      rcases spaces with rfl | rfl | rfl | rfl <;> simp [Blank.solid, isSpace] at stops
    · simp [text, Blank.solid] at stops
    · simp [text, Blank.solid] at stops
  | lineEnd inLine => cases inLine
  | lineComment inLine => cases inLine
  | @blockComment offset rest left =>
    refine ⟨?_, by simp, ?_⟩
    · rintro next more ⟨⟩
      decide
    · rintro comment behind ⟨⟩
      obtain ⟨found, ends⟩ := Option.isSome_iff_exists.mp
        (blockEndFrom_isSome false (offset + 2) comment behind)
      cases (left found.1 found.2 ends).2

/-- The laws of the two scans.  Both always succeed, and both skip blanks and
comments as long as they find any, the one on the line without its end. -/
theorem blank_scans_lawful (start : Cursor) :
    Parser.blanks start = .done () (skip start) ∧
      Parser.lineBlanks start = .done () (skipInLine start) ∧
      Skips true start (skip start) ∧ Skips false start (skipInLine start) ∧
      (∃ skipped, start.rest = skipped ++ (skipInLine start).rest ∧ '\n' ∉ skipped) ∧
      (∀ next rest, (skip start).rest = next :: rest → next ∉ [' ', '\t', '\r', '\n']) ∧
      (∀ rest, (skip start).rest ≠ '/' :: '/' :: rest) ∧
      (∀ comment behind,
        (skip start).rest ≠ '/' :: '*' :: (comment ++ '*' :: '/' :: behind)) ∧
      skip (skip start) = skip start ∧
      skipInLine (skipInLine start) = skipInLine start ∧
      skip (skipInLine start) = skip start := by
  obtain ⟨spaces, lines, blocks⟩ := (skips_skip start).stays.rest
  exact ⟨rfl, rfl, skips_skip start, skips_skipInLine start, (skips_skipInLine start).text,
    spaces, lines, blocks, skip_skip start, skipInLine_skipInLine start, skip_skipInLine start⟩

end Blank

/-! ### Texts that go on -/

def NewLine (tail : List Char) : Prop := ∀ next more, tail = next :: more → next = '\n'

theorem newLine_nil : NewLine [] := by
  intro next more impossible
  cases impossible

def Cursor.followedBy (tail : List Char) (cursor : Cursor) : Cursor :=
  ⟨cursor.offset, cursor.rest ++ tail⟩

@[simp] theorem Cursor.followedBy_nil (cursor : Cursor) : cursor.followedBy [] = cursor := by
  simp [followedBy]

/-- A word that the text starts with does not reach into the new line. -/
theorem NewLine.starts (newLine : NewLine tail) (word : List Char)
    (same : characters ++ tail = word ++ more) (inLine : '\n' ∉ word) :
    ∃ rest, characters = word ++ rest := by
  induction word generalizing characters with
  | nil => exact ⟨characters, rfl⟩
  | cons wanted word ih =>
    simp only [List.mem_cons, not_or] at inLine
    cases characters with
    | nil => exact absurd (newLine wanted _ same).symm inLine.1
    | cons next characters =>
      obtain ⟨rfl, later⟩ := List.cons.inj same
      obtain ⟨rest, rfl⟩ := ih later inLine.2
      exact ⟨rest, rfl⟩

/-- What the text does not start with does not come with the new line. -/
theorem NewLine.absent {rest : List Char} {after : Char} (newLine : NewLine tail)
    (inLine : after ≠ '\n') (single : ∀ more, rest ≠ after :: more) :
    rest ++ tail ≠ after :: more := by
  intro same
  obtain ⟨others, text⟩ := newLine.starts [after] same (by simpa using inLine.symm)
  exact single others text

/-- A look at the next two characters that takes the end of the text for a line end. -/
theorem NewLine.look {α : Type} {tail : List Char} (newLine : NewLine tail)
    (look : List Char → α) (none : ∀ more, look ('\n' :: more) = look [])
    (one : ∀ next more, look (next :: '\n' :: more) = look [next])
    (two : ∀ next after more more', look (next :: after :: more) = look (next :: after :: more'))
    (characters : List Char) : look (characters ++ tail) = look characters := by
  have line : tail = [] ∨ ∃ more, tail = '\n' :: more := by
    cases tail with
    | nil => exact .inl rfl
    | cons next more =>
      cases newLine next more rfl
      exact .inr ⟨more, rfl⟩
  rcases line with rfl | ⟨more, rfl⟩
  · rw [List.append_nil]
  · match characters with
    | [] => exact none more
    | [next] => exact one next more
    | next :: after :: rest => exact two next after _ _

theorem Cursor.skipWhileFrom_followedBy (newLine : NewLine tail) {predicate : Char → Bool}
    (inLine : predicate '\n' = false) (offset : Nat) (characters : List Char) :
    skipWhileFrom predicate offset (characters ++ tail)
      = (skipWhileFrom predicate offset characters).followedBy tail := by
  fun_induction skipWhileFrom predicate offset characters with
  | case1 offset =>
    cases tail with
    | nil => rfl
    | cons next more =>
      cases newLine next more rfl
      simp [skipWhileFrom, inLine, followedBy]
  | case2 offset next rest holds ih =>
    simpa [skipWhileFrom, holds] using ih
  | case3 offset next rest stops => simp [skipWhileFrom, stops, followedBy]

/-! ### Blanks before a new line -/

namespace Blank

theorem skipLine_followedBy (newLine : NewLine tail) (start : Cursor) :
    skipLine (start.followedBy tail) = (skipLine start).followedBy tail :=
  Cursor.skipWhileFrom_followedBy newLine (by decide) start.offset start.rest

theorem blockEndFrom_lasts (found : blockEndFrom crossed offset characters = some (crosses, last)) :
    blockEndFrom crossed offset (characters ++ tail) = some (crosses, last.followedBy tail) := by
  fun_induction blockEndFrom crossed offset characters with
  | case1 crossed offset rest =>
    cases found
    rfl
  | case2 crossed offset next rest inside ih =>
    rw [List.cons_append, blockEndFrom]
    · exact ih found
    · rintro more rfl same
      cases rest with
      | nil => cases found
      | cons second rest =>
        rw [(List.cons.inj same).1] at inside
        exact inside rest rfl rfl
  | case3 => cases found

section Onward

variable {tail : List Char} {start stop : Cursor}

variable (newLine : NewLine tail)
include newLine

theorem solid_followedBy (stops : solid characters = true) : solid (characters ++ tail) = true := by
  revert stops
  fun_cases solid characters with
  | case1 => simp
  | case2 => simp
  | case3 => simp
  | case4 next rest line block =>
    intro visible
    rw [List.cons_append, solid]
    · exact visible
    · rintro more rfl
      exact newLine.absent (by decide) fun more same => line more rfl same
    · rintro more rfl
      exact newLine.absent (by decide) fun more same => block more rfl same

/-- A scan that comes to an end or to something solid goes on there in the longer text. -/
theorem Skips.followedBy (skips : Skips true start stop)
    (settled : stop.rest = [] ∨ solid stop.rest = true) :
    skip (start.followedBy tail) = skip (stop.followedBy tail) := by
  induction skips with
  | stay _ => rfl
  | space blank _ ih =>
    rw [← ih settled]
    exact skip_space _ _ (isSpace_iff.mpr (blank.imp_right And.right))
  | line _ _ ih =>
    rw [← ih settled, ← skipLine_followedBy newLine]
    exact skip_line _ _
  | @block offset rest _ _ _ ends _ _ ih =>
    have further : blockEnd? ⟨offset + 2, rest ++ tail⟩ = _ := blockEndFrom_lasts ends
    rw [← ih settled]
    refine (skip_block offset (rest ++ tail)).trans ?_
    rw [further]
    rfl

/-- A scan that something solid stops does not reach the new line. -/
theorem skip_followedBy_of_solid (stops : solid (skip start).rest = true) :
    skip (start.followedBy tail) = (skip start).followedBy tail := by
  rw [(skips_skip start).followedBy newLine (.inr stops)]
  exact skip_of_solid (solid_followedBy newLine stops)

/-- Blanks that reach the end of the text go on with those of the new line. -/
theorem skip_followedBy_of_end (ends : (skip start).rest = []) :
    skip (start.followedBy tail) = skip ⟨(skip start).offset, tail⟩ := by
  rw [(skips_skip start).followedBy newLine (.inl ends), Cursor.followedBy, ends, List.nil_append]

end Onward

/-- Blanks of a line end where the line does. -/
theorem skipInLineFrom_followedBy (newLine : NewLine tail) (comment : Option Cursor) (offset : Nat)
    (characters : List Char) :
    skipInLineFrom (comment.map (Cursor.followedBy tail)) offset (characters ++ tail)
      = (skipInLineFrom comment offset characters).followedBy tail := by
  fun_induction skipInLineFrom comment offset characters with
  | case1 offset rest ih =>
    simpa [Cursor.followedBy, skipInLineFrom] using ih
  | case2 offset next rest block space ih =>
    rw [Option.map_none, List.cons_append, skipInLineFrom, if_pos space]
    · exact ih
    · rintro more rfl
      exact newLine.absent (by decide) fun more same => block more rfl same
  | case3 offset next rest block space =>
    rw [Option.map_none, List.cons_append, skipInLineFrom, if_neg space]
    · rfl
    · rintro more rfl
      exact newLine.absent (by decide) fun more same => block more rfl same
  | case4 offset | case8 start offset =>
    cases tail with
    | nil => rfl
    | cons next more =>
      cases newLine next more rfl
      rfl
  | case5 start offset rest ih =>
    simpa [skipInLineFrom] using ih
  | case6 start offset rest =>
    rw [Option.map_some, List.cons_append, skipInLineFrom, if_pos rfl]
    intro more impossible
    cases impossible
  | case7 start offset next rest inside line ih =>
    rw [Option.map_some, List.cons_append, skipInLineFrom, if_neg line]
    · exact ih
    · rintro more rfl
      exact newLine.absent (by decide) fun more same => inside more rfl same

theorem skipInLine_followedBy (newLine : NewLine tail) (start : Cursor) :
    skipInLine (start.followedBy tail) = (skipInLine start).followedBy tail :=
  skipInLineFrom_followedBy newLine none start.offset start.rest

end Blank

end Unclosed.Grammar
