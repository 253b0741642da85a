import Unclosed.Proofs.LastingExpressions

/-!
The ends of struct fields.  Behind the type of a field stand a tag, a semicolon or
blanks, comments included, up to the end of its text; neither the names nor the type
change when the text goes on in a new line.  A type that starts with a word is found
behind line ends, other types are not.
-/

namespace Unclosed.Grammar

open Grammar.Parser

variable {characters : List Char} {rules : Rules} {name : Ident} {form : TypeForm} {word : String}

/-! ### Behind the type of a field -/

section FieldEnds

variable {tail : List Char} {start stop last : Cursor} {tag : Option String}

/-- What stands at the end of a statement, behind the blanks of its line, and where the text
goes on. -/
inductive EndsStatement : Cursor → Cursor → Prop where
  | atEnd (offset : Nat) : EndsStatement ⟨offset, []⟩ ⟨offset, []⟩
  | closing (offset : Nat) {next : Char} (bracket : next ∈ ['\x7d', ')']) (rest : List Char) :
      EndsStatement ⟨offset, next :: rest⟩ ⟨offset, next :: rest⟩
  | semicolon (offset : Nat) (rest : List Char) :
      EndsStatement ⟨offset, ';' :: rest⟩ ⟨offset + 1, rest⟩
  | lineEnd (offset : Nat) (rest : List Char) :
      EndsStatement ⟨offset, '\n' :: rest⟩ ⟨offset + 1, rest⟩
  | lineComment (offset : Nat) (rest : List Char) :
      EndsStatement ⟨offset, '/' :: '/' :: rest⟩ (Blank.skipLine ⟨offset, '/' :: '/' :: rest⟩)
  | blockComment {offset : Nat} {rest : List Char} {stop : Cursor}
      (found : Blank.blockEnd? ⟨offset + 2, rest⟩ = some (true, stop)) :
      EndsStatement ⟨offset, '/' :: '*' :: rest⟩ stop

theorem endsStatement_of_done (ended : statementEnd start = .done () last) :
    EndsStatement (Blank.skipInLine start) last := by
  unfold statementEnd at ended
  generalize Blank.skipInLine start = place at ended
  obtain ⟨offset, characters⟩ := place
  dsimp only at ended
  split at ended
  · cases ended
    exact .atEnd offset
  · cases ended
    exact .closing offset (by decide) _
  · cases ended
    exact .closing offset (by decide) _
  · cases ended
    exact .semicolon offset _
  · cases ended
    exact .lineEnd offset _
  · cases ended
    exact .lineComment offset _
  · split at ended
    · next found =>
      cases ended
      exact .blockComment found
    · cases ended
    · cases ended
  · cases ended

theorem done_of_endsStatement (ends : EndsStatement (Blank.skipInLine start) last) :
    statementEnd start = .done () last := by
  unfold statementEnd
  generalize Blank.skipInLine start = place at ends
  cases ends with
  | atEnd offset => rfl
  | closing offset bracket rest =>
    simp only [List.mem_cons, List.not_mem_nil, or_false] at bracket
    rcases bracket with rfl | rfl <;> rfl
  | semicolon offset rest => rfl
  | lineEnd offset rest => rfl
  | lineComment offset rest => rfl
  | blockComment found => simp only [found]

namespace EndsStatement

variable {place : Cursor} (ends : EndsStatement place last)
include ends

/-- A statement that ends in blanks or in a comment leaves only blanks unread. -/
theorem skip_eq (blank : Blank.solid place.rest = false) : Blank.skip last = Blank.skip place := by
  cases ends with
  | atEnd offset => rfl
  | closing offset bracket rest => rfl
  | semicolon offset rest => cases blank
  | lineEnd offset rest => rfl
  | lineComment offset rest => exact (Blank.skip_line offset rest).symm
  | blockComment found =>
    rw [Blank.skip_block, found]
    rfl

/-- A statement that ends before something solid ends before a semicolon, if only blanks are
left behind it. -/
theorem semicolon_of_solid (complete : (Blank.skip last).rest = [])
    (stops : Blank.solid place.rest = true) : startsAmong [';'] place.rest = true := by
  cases ends with
  | atEnd offset => cases stops
  | closing offset bracket rest =>
    rw [Blank.skip_of_solid stops] at complete
    cases complete
  | semicolon offset rest => rfl
  | lineEnd offset rest => cases stops
  | lineComment offset rest => cases stops
  | blockComment found => cases stops

/-- A statement that ends in a text that has only blanks left ends also when the text goes on
in a new line. -/
theorem followedBy (newLine : NewLine tail) (complete : (Blank.skip last).rest = []) :
    ∃ last', EndsStatement (place.followedBy tail) last' ∧
      Blank.skip last' = Blank.skip ⟨(Blank.skip last).offset, tail⟩ := by
  have onward : Blank.skip (last.followedBy tail) = Blank.skip ⟨(Blank.skip last).offset, tail⟩ :=
    Blank.skip_followedBy_of_end newLine complete
  cases ends with
  | atEnd offset =>
    cases tail with
    | nil => exact ⟨_, .atEnd offset, rfl⟩
    | cons next more =>
      cases newLine next more rfl
      exact ⟨_, .lineEnd offset more, rfl⟩
  | closing offset bracket rest => exact ⟨_, .closing offset bracket _, onward⟩
  | semicolon offset rest => exact ⟨_, .semicolon offset _, onward⟩
  | lineEnd offset rest => exact ⟨_, .lineEnd offset _, onward⟩
  | lineComment offset rest =>
    have line := Blank.skipLine_followedBy newLine ⟨offset, '/' :: '/' :: rest⟩
    exact ⟨_, .lineComment offset _, (congrArg Blank.skip line).trans onward⟩
  | blockComment found =>
    exact ⟨_, .blockComment (Blank.blockEndFrom_lasts found), onward⟩

end EndsStatement

def literalTag : Parser (Option String) := do
  match ← stringLiteral with
  | .literal _ _ text => pure (some text)
  | _ => pure none

theorem fieldTag_of_quote (quoted : startsAmong ['"', '`'] start.rest = true) :
    fieldTag start = literalTag start := by
  obtain ⟨next, more, text, member⟩ := head_of_startsAmong quoted
  obtain ⟨offset, characters⟩ := start
  cases text
  simp only [List.mem_cons, List.not_mem_nil, or_false] at member
  rcases member with rfl | rfl <;> rfl

theorem quotedTag_of_other (quotedTag : Parser (Option String))
    (unquoted : startsAmong ['"', '`'] characters = false) :
    (match characters with
      | '"' :: _ | '`' :: _ => quotedTag
      | _ => pure none) = pure none := by
  split
  · cases unquoted
  · cases unquoted
  · rfl

theorem fieldTag_of_other (unquoted : startsAmong ['"', '`'] start.rest = false) :
    fieldTag start = .done none start :=
  congrFun (quotedTag_of_other _ unquoted) start

theorem fieldTag_lasts (newLine : NewLine tail) : Endures tail anywhere start fieldTag := by
  intro tag rest parsed _
  have same : startsAmong ['"', '`'] (start.followedBy tail).rest = _ :=
    startsAmong_followedBy newLine start.rest (by decide)
  cases quoted : startsAmong ['"', '`'] start.rest with
  | true =>
    rw [fieldTag_of_quote quoted] at parsed
    rw [fieldTag_of_quote (same.trans quoted)]
    have lasts : Endures tail anywhere start literalTag := by
      apply Lasts.andThen (stringLiteral_lasts newLine)
      intro literal middle _
      exact .of_matches (by cases literal <;> exact .done _ _)
    exact lasts tag rest parsed trivial
  | false =>
    rw [fieldTag_of_other quoted] at parsed
    cases parsed
    exact fieldTag_of_other (same.trans quoted)

end FieldEnds

/-- Behind the type of a field its tag is read, if there is one, and then the end of the
field, and only blanks are left of the text. -/
structure FieldEnd (start : Cursor) (tag : Option String) (stop last : Cursor) : Prop where
  tagged : fieldTag (Blank.skipInLine start) = .done tag stop
  ended : statementEnd stop = .done () last
  complete : (Blank.skip last).rest = []

namespace FieldEnd

variable {tail : List Char} {start stop last : Cursor} {tag : Option String}
  (fieldEnd : FieldEnd start tag stop last)
include fieldEnd

/-- What stands behind the type: a quote, a semicolon, or blanks up to the end. -/
theorem cases_of_line :
    startsAmong ['"', '`'] (Blank.skipInLine start).rest = true ∨
      startsAmong [';'] (Blank.skipInLine start).rest = true ∨
        Blank.solid (Blank.skipInLine start).rest = false ∧ (Blank.skip start).rest = [] := by
  obtain ⟨tagged, ended, complete⟩ := fieldEnd
  cases quoted : startsAmong ['"', '`'] (Blank.skipInLine start).rest with
  | true => exact .inl rfl
  | false =>
    rw [fieldTag_of_other quoted] at tagged
    cases tagged
    have ends := endsStatement_of_done ended
    rw [Blank.skipInLine_skipInLine] at ends
    right
    cases blank : Blank.solid (Blank.skipInLine start).rest with
    | false =>
      have same := ends.skip_eq blank
      rw [Blank.skip_skipInLine] at same
      exact .inr ⟨rfl, same ▸ complete⟩
    | true => exact .inl (ends.semicolon_of_solid complete blank)

theorem ofCharacters_eq_none : TypeForm.ofCharacters (Blank.skipInLine start).rest = none := by
  rcases fieldEnd.cases_of_line with quoted | semicolon | ⟨blank, _⟩
  · obtain ⟨next, more, text, member⟩ := head_of_startsAmong quoted
    simp only [List.mem_cons, List.not_mem_nil, or_false] at member
    rw [text]
    rcases member with rfl | rfl <;> rfl
  · obtain ⟨next, more, text, member⟩ := head_of_startsAmong semicolon
    cases List.mem_singleton.mp member
    rw [text]
    rfl
  · exact TypeForm.ofCharacters_of_not_solid blank

theorem typeEnd {limit : Nat} (grounded : rules.Grounded tail limit)
    (short : start.rest.length < limit) (type : TypeExpr) : TypeEnd tail rules type start := by
  intro _
  cases goesOn : endsSignature (Blank.skipInLine start) with
  | true => exact .inl rfl
  | false =>
    exact .inr (calm_of_line grounded short rfl (solid_of_endsSignature rfl goesOn)
      fieldEnd.ofCharacters_eq_none)

theorem followedBy (newLine : NewLine tail) :
    fieldTag (Blank.skipInLine (start.followedBy tail)) = .done tag (stop.followedBy tail) ∧
      ∃ last', statementEnd (stop.followedBy tail) = .done () last' ∧
        Blank.skip last' = Blank.skip ⟨(Blank.skip last).offset, tail⟩ := by
  obtain ⟨tagged, ended, complete⟩ := fieldEnd
  obtain ⟨last', ends, after⟩ := (endsStatement_of_done ended).followedBy newLine complete
  rw [← Blank.skipInLine_followedBy newLine] at ends
  rw [Blank.skipInLine_followedBy newLine]
  exact ⟨fieldTag_lasts newLine tag stop tagged trivial, last', done_of_endsStatement ends, after⟩

theorem reaches (solves : rules.Solves) (short : start.rest.length < rules.bound) :
    start.Reaches 0 (Blank.skip last) := by
  obtain ⟨tagged, ended, _⟩ := fieldEnd
  have line := Blank.reaches_skipInLine start
  have inLine := line.length_le
  have toStop := (solves.reaches .fieldTag (by omega) tagged).mono (Nat.zero_le _)
  have inTag := toStop.length_le
  have toLast := (solves.reaches .statementEnd (by omega) ended).mono (Nat.zero_le _)
  exact ((line.trans toStop).trans toLast).trans (Blank.reaches_skip last)

end FieldEnd

/-! ### Names and types of fields -/

def NoComma (place : Cursor) : Prop :=
  Blank.solid (Blank.skip place).rest = true ∧ (Blank.skip place).after? "," = none

section Names

variable {tail : List Char} {start : Cursor}

theorem comma_misses_of_noComma (newLine : NewLine tail) (noComma : NoComma start) :
    (symbol ",").Misses (start.followedBy tail) := by
  apply tag_misses
  rw [Blank.skip_followedBy_of_solid newLine noComma.1, Cursor.after?_followedBy newLine (by decide),
    noComma.2]
  rfl

theorem nameTurn_of_done {rest : Cursor}
    (found : (symbol "," >>= fun _ => identifier) start = .done name rest) :
    separatedTurn (symbol ",") identifier start = .done (.more name) rest := by
  rw [separatedTurn, bind_apply, Parser.optional, found]
  rfl

theorem nameTurn_of_misses
    (misses : (symbol "," >>= fun _ => identifier).Misses start) :
    separatedTurn (symbol ",") identifier start = .done .stop start := by
  obtain ⟨fault, missed⟩ := misses
  rw [separatedTurn, bind_apply, Parser.optional, missed]
  rfl

/-- The names behind commas, where no comma follows the last one. -/
theorem moreNames_lasts (newLine : NewLine tail) (bound : Nat) :
    Endures tail (fun _ => NoComma) start
      (collect (separatedTurn (symbol ",") identifier) bound) := by
  induction bound generalizing start with
  | zero => exact .fail
  | succ bound ih =>
    have next : Endures tail anywhere start (symbol "," >>= fun _ => identifier) :=
      .andThen (symbol_lasts newLine (by decide) (by decide)) fun _ _ _ =>
        identifier_lasts newLine
    intro names rest parsed noComma
    rw [collect, bind_apply] at parsed ⊢
    cases found : (symbol "," >>= fun _ => identifier) start with
    | done name middle =>
      rw [nameTurn_of_done found] at parsed
      rw [nameTurn_of_done (next name middle found trivial)]
      obtain ⟨others, last, collected, given⟩ := bind_eq_done.mp (show
        (collect (separatedTurn (symbol ",") identifier) bound >>= fun others =>
          pure (name :: others)) middle = .done names rest from parsed)
      cases given
      exact bind_eq_done.mpr ⟨others, _, ih others _ collected noComma, rfl⟩
    | miss fault =>
      rw [nameTurn_of_misses ⟨fault, found⟩] at parsed
      cases parsed
      rw [nameTurn_of_misses (comma_misses_of_noComma newLine noComma).bind]
      rfl
    | halt fault =>
      rw [separatedTurn, bind_apply, Parser.optional, found] at parsed
      cases parsed

end Names

/-- Where a type starts no other sign stands. -/
theorem after?_of_form {start : Cursor} (starts : TypeForm.at? start = some form) (word : String)
    (noForm : ∀ more, TypeForm.ofCharacters (word.toList ++ more) = none) :
    (Blank.skip start).after? word = none := by
  cases found : (Blank.skip start).after? word with
  | none => rfl
  | some place =>
    rw [TypeForm.at?, Cursor.text_of_after? found, noForm] at starts
    cases starts

section Fields

variable {tail : List Char} {rules : Rules} {limit : Nat} (grounded : rules.Grounded tail limit)
  {start rest : Cursor}
include grounded

section

variable (short : start.rest.length < limit)
include short

theorem noComma_of_typeHere {type : TypeExpr}
    (parsed : rules.typeHere (Blank.skipInLine start) = .done type rest) : NoComma start := by
  have shorter : (Blank.skipInLine start).rest.length < limit :=
    Nat.lt_of_le_of_lt (Blank.reaches_skipInLine start).length_le short
  rw [grounded_typeHere grounded shorter] at parsed
  obtain ⟨form, starts⟩ := form_of_typeHere parsed
  have stops := TypeForm.solid_of_at? starts
  have noComma := after?_of_form starts "," fun _ => rfl
  rw [Blank.skip_skipInLine] at stops noComma
  exact ⟨stops, noComma⟩

theorem namedField_lasts :
    Endures tail (fun found => TypeEnd tail rules found.2) start (namedField rules) := by
  have newLine := grounded.newLine
  have lasting := (grounded.lasting (Nat.le_refl limit)).typeHere
  have room := grounded.room
  have reached {names : List Ident} {middle : Cursor}
      (read : separated rules.bound (symbol ",") identifier start = .done names middle) :
      middle.rest.length < limit := by
    have := (grounded.solves.reaches .names (by omega) read).length_le
    omega
  have names : Endures tail (fun _ => NoComma) start
      (separated rules.bound (symbol ",") identifier) := by
    apply Lasts.andThen (identifier_lasts newLine)
    intro first middle _
    apply Lasts.bind (moreNames_lasts newLine rules.bound)
    · intro others middle result rest _ given noComma
      cases given
      exact noComma
    · intro others middle _
      exact .pure
  apply Lasts.bind names
  · intro names middle result rest read parsed _
    obtain ⟨type, last, found, _⟩ := bind_eq_done.mp (show
      (rules.typeHere >>= fun type => pure (names, type)) (Blank.skipInLine middle) = _ from parsed)
    exact noComma_of_typeHere grounded (reached read) found
  · intro names middle read
    have := reached read
    have := (Blank.reaches_skipInLine middle).length_le
    apply Lasts.lineBlanks newLine
    apply Lasts.bind (lasting (Blank.skipInLine middle) (by omega))
    · intro type middle result rest _ given ends
      cases given
      exact ends
    · intro type middle _
      exact .pure

theorem embeddedField_lasts :
    Endures tail (fun found => TypeEnd tail rules found.2) start (embeddedField rules) := by
  apply Lasts.bind ((grounded.lasting (Nat.le_refl limit)).typeHere start short)
  · intro type middle result rest _ given ends
    cases given
    exact ends
  · intro type middle _
    exact .pure

end

omit grounded in
/-- A name without a comma behind it is followed by its type. -/
theorem namedField_of_name {middle : Cursor} (read : identifier start = .done name middle)
    (noComma : (symbol ",").Misses middle) (bounded : 0 < rules.bound) :
    namedField rules start =
      (rules.typeHere >>= fun type => pure ([name], type)) (Blank.skipInLine middle) := by
  obtain ⟨bound, same⟩ := Nat.exists_eq_succ_of_ne_zero (Nat.ne_of_gt bounded)
  have single : separated rules.bound (symbol ",") identifier start = .done [name] middle := by
    rw [separated, bind_apply, read, same]
    dsimp only
    rw [bind_apply, collect, bind_apply, nameTurn_of_misses noComma.bind]
    rfl
  rw [namedField, bind_apply, single]
  rfl

omit grounded in
theorem namedField_misses_of_identifier (misses : identifier.Misses start) :
    (namedField rules).Misses start :=
  misses.bind.bind

omit grounded in
/-- Behind the first name of an embedded field no type stands on the line, but a dot, a tag, a
semicolon or blanks up to the end. -/
theorem behind_embedded_name {build : Span → TypeExpr} {tag : Option String} {stop last : Cursor}
    (parsed : namedType start = .done build rest) (fieldEnd : FieldEnd rest tag stop last) :
    ∃ name middle, identifier start = .done name middle ∧
      ((Blank.skip middle).rest = [] ∨
        startsAmong ['.', '"', '`', ';'] (Blank.skipInLine middle).rest = true ∧
          TypeForm.ofCharacters (Blank.skipInLine middle).rest = none) := by
  obtain ⟨name, middle, read, parsed⟩ := bind_eq_done.mp parsed
  refine ⟨name, middle, read, ?_⟩
  rw [accepts_bind, bind_apply] at parsed
  cases dot : (lineSymbol "." middle).isDone with
  | true =>
    obtain ⟨_, place, dotted⟩ := Reply.exists_of_isDone dot
    rw [probe_of_done dotted] at parsed
    obtain ⟨second, _, readSecond, _⟩ := bind_eq_done.mp (show
      (identifier >>= fun second => pure fun span => TypeExpr.qualified span name second) place
        = _ from parsed)
    have text : (Blank.skipInLine middle).rest = '.' :: place.rest :=
      Cursor.text_of_after? (tag_eq_done.mp dotted)
    rw [text]
    refine .inr ⟨rfl, ofCharacters_of_point fun others dots => ?_⟩
    have named := name_of_identifier readSecond
    rw [Blank.skip_of_solid (by rw [dots]; rfl), dots] at named
    cases named
  | false =>
    rw [probe_of_not_done dot] at parsed
    cases parsed
    have signs {signs : List Char} (among : startsAmong signs (Blank.skipInLine rest).rest = true)
        (part : ∀ sign ∈ signs, sign ∈ ['.', '"', '`', ';']) :
        startsAmong ['.', '"', '`', ';'] (Blank.skipInLine rest).rest = true := by
      obtain ⟨next, more, text, member⟩ := head_of_startsAmong among
      rw [text]
      simpa [startsAmong] using part next member
    rcases fieldEnd.cases_of_line with quoted | semicolon | ⟨_, empty⟩
    · exact .inr ⟨signs quoted (by decide), fieldEnd.ofCharacters_eq_none⟩
    · exact .inr ⟨signs semicolon (by decide), fieldEnd.ofCharacters_eq_none⟩
    · exact .inl empty

end Fields

/-! ### Types in the next line -/

def startsWord (characters : List Char) : Bool := characters.head?.any isIdentStart

section NextLine

variable {rules : Rules} {start : Cursor}

theorem typeHere_misses_of_choice
    (misses : (choice (TypeForm.all.map (TypeForm.parser rules))).Misses start) :
    (typeHere rules).Misses start :=
  misses.bind

theorem after?_eq_none_of_blank (blank : Blank.solid start.rest = false) (visible : Visible word) :
    start.after? word = none := by
  cases found : start.after? word with
  | none => rfl
  | some rest =>
    rw [solid_of_after? found visible] at blank
    cases blank

theorem keyword_misses_of_noWord (noWord : startsWord (Blank.skip start).rest = false)
    (letters : ∀ letter ∈ word.toList, isIdentChar letter = true)
    (starts : startsWord word.toList = true) : (keyword word).Misses start := by
  apply keyword_misses _ letters
  intro same
  rw [← same, startsWord] at starts
  cases text : (Blank.skip start).rest with
  | nil =>
    rw [text] at starts
    cases starts
  | cons next more =>
    rw [text] at starts noWord
    by_cases letter : isIdentChar next = true
    · rw [List.takeWhile_cons_of_pos letter] at starts
      rw [startsWord, List.head?_cons] at noWord
      rw [List.head?_cons, noWord] at starts
      cases starts
    · rw [List.takeWhile_cons_of_neg letter] at starts
      cases starts

theorem identifier_misses_of_noWord (noWord : startsWord (Blank.skip start).rest = false) :
    identifier.Misses start := by
  apply identifier_misses
  rw [Bool.eq_false_iff]
  intro named
  obtain ⟨next, more, text, letter⟩ := identStart_of_isName named
  rw [text, startsWord, List.head?_cons, Option.any_some, letter] at noWord
  cases noWord

/-- Before a line end no type starts, unless the next line starts with a word. -/
theorem typeHere_misses_of_noWord (blank : Blank.solid start.rest = false)
    (noWord : startsWord (Blank.skip start).rest = false) : (typeHere rules).Misses start := by
  apply typeHere_misses_of_choice
  apply choice_misses
  intro form _
  cases form with
  | pointer | array | paren | ellipsis =>
    exact (tag_misses (after?_eq_none_of_blank blank (by decide))).bind
  | map | func | struct | interface =>
    exact (keyword_misses_of_noWord noWord (by decide) (by decide)).bind
  | chan =>
    obtain ⟨fault, missed⟩ : (keyword "chan").Misses start :=
      keyword_misses_of_noWord noWord (by decide) (by decide)
    refine ⟨fault, ?_⟩
    rw [TypeForm.parser, chanType, accept_bind_apply, after?_eq_none_of_blank blank (by decide)]
    dsimp only
    rw [if_neg (by simp), bind_apply, missed]
  | name => exact (identifier_misses_of_noWord noWord).bind

/-- Behind blanks only the place matters that they lead to. -/
theorem blanks_bind_of_skip {α : Type} {next : Unit → Parser α} {other : Cursor}
    (same : Blank.skip start = Blank.skip other) :
    (blanks >>= next) start = (blanks >>= next) other :=
  congrArg (next ()) same

theorem keyword_skip (word : String) (start : Cursor) :
    keyword word (Blank.skip start) = keyword word start :=
  blanks_bind_of_skip (Blank.skip_skip start)

theorem identifier_skip (start : Cursor) : identifier (Blank.skip start) = identifier start :=
  blanks_bind_of_skip (Blank.skip_skip start)

theorem head_of_startsWord (word : startsWord characters = true) :
    ∃ next more, characters = next :: more ∧ isIdentStart next = true := by
  cases characters with
  | nil => cases word
  | cons next more => exact ⟨next, more, rfl, word⟩

theorem form_of_ofWord {letters : List Char} (starts : TypeForm.ofWord letters = some form) :
    form ∈ [.map, .chan, .func, .struct, .interface, .name] := by
  revert starts
  fun_cases TypeForm.ofWord letters <;> rintro ⟨⟩ <;> decide

theorem form_of_word (word : startsWord (Blank.skip start).rest = true)
    (starts : TypeForm.at? start = some form) :
    form ∈ [.map, .chan, .func, .struct, .interface, .name] := by
  obtain ⟨next, more, text, letter⟩ := head_of_startsWord word
  rw [TypeForm.at?, text,
    TypeForm.ofCharacters_of_letter (identChar_of_identStart letter)] at starts
  exact form_of_ofWord starts

/-- A form that starts with a word does not mind blanks before it. -/
theorem parser_skip (blank : Blank.solid start.rest = false)
    (word : startsWord (Blank.skip start).rest = true) (starts : TypeForm.at? start = some form) :
    form.parser rules (Blank.skip start) = form.parser rules start := by
  have member := form_of_word word starts
  simp only [List.mem_cons, List.not_mem_nil, or_false] at member
  rcases member with rfl | rfl | rfl | rfl | rfl | rfl
  · change (keyword "map" >>= _) _ = (keyword "map" >>= _) _
    rw [bind_apply, bind_apply, keyword_skip]
  · have absent : (Blank.skip start).after? "<-" = none := by
      obtain ⟨next, more, text, letter⟩ := head_of_startsWord word
      apply after?_eq_none
      rw [text]
      have other : next ≠ '<' := by
        rintro rfl
        exact absurd letter (by decide)
      simpa using other
    change (accept "<-" >>= _) _ = (accept "<-" >>= _) _
    rw [accept_bind_apply, accept_bind_apply, absent, after?_eq_none_of_blank blank (by decide)]
    change (keyword "chan" >>= _) _ = (keyword "chan" >>= _) _
    rw [bind_apply, bind_apply, keyword_skip]
  · change (keyword "func" >>= _) _ = (keyword "func" >>= _) _
    rw [bind_apply, bind_apply, keyword_skip]
  · change (keyword "struct" >>= _) _ = (keyword "struct" >>= _) _
    rw [bind_apply, bind_apply, keyword_skip]
  · change (keyword "interface" >>= _) _ = (keyword "interface" >>= _) _
    rw [bind_apply, bind_apply, keyword_skip]
  · change (identifier >>= _) _ = (identifier >>= _) _
    rw [bind_apply, bind_apply, identifier_skip]

theorem at?_skip (start : Cursor) : TypeForm.at? (Blank.skip start) = TypeForm.at? start := by
  rw [TypeForm.at?, Blank.skip_skip, ← TypeForm.at?]

/-- Before a line end the type is read that the next line starts with, if it starts with a
word. -/
theorem isDone_typeHere_of_word (blank : Blank.solid start.rest = false)
    (word : startsWord (Blank.skip start).rest = true) :
    (typeHere rules start).isDone = (typeHere rules (Blank.skip start)).isDone := by
  cases starts : TypeForm.at? start with
  | none =>
    rw [isDone_typeHere_of_none starts, isDone_typeHere_of_none ((at?_skip start).trans starts)]
  | some form =>
    rw [isDone_typeHere starts, isDone_typeHere ((at?_skip start).trans starts),
      parser_skip blank word starts]

theorem identifier_of_isName
    (named : isName ((Blank.skip start).rest.takeWhile isIdentChar) = true) :
    (identifier start).isDone = true := by
  rw [identifier_apply]
  generalize Blank.skip start = place at named
  obtain ⟨offset, characters⟩ := place
  obtain ⟨next, more, rfl, letter⟩ := identStart_of_isName named
  rw [isName, Bool.and_eq_true, Bool.not_eq_true'] at named
  rw [bind_apply, name_apply offset more letter]
  dsimp only
  rw [if_neg (by simp [named.2])]
  rfl

theorem identifier_misses_of_not_done (missing : (identifier start).isDone = false) :
    identifier.Misses start := by
  apply identifier_misses
  rw [Bool.eq_false_iff]
  intro named
  rw [identifier_of_isName named] at missing
  cases missing

theorem namedType_misses_of_not_done (missing : (namedType start).isDone = false) :
    namedType.Misses start := by
  cases read : (identifier start).isDone with
  | false => exact (identifier_misses_of_not_done read).bind
  | true =>
    obtain ⟨first, middle, found⟩ := Reply.exists_of_isDone read
    rw [Misses, namedType, bind_apply, found]
    rw [namedType, bind_apply, found] at missing
    dsimp only at missing ⊢
    rw [accepts_bind, bind_apply] at missing ⊢
    cases dot : (lineSymbol "." middle).isDone with
    | false =>
      rw [probe_of_not_done dot] at missing
      cases missing
    | true =>
      obtain ⟨_, place, dotted⟩ := Reply.exists_of_isDone dot
      rw [probe_of_done dotted] at missing ⊢
      cases second : (identifier place).isDone with
      | false => exact (identifier_misses_of_not_done second).bind
      | true =>
        obtain ⟨name, last, read⟩ := Reply.exists_of_isDone second
        change ((identifier >>= _) place).isDone = false at missing
        rw [bind_apply, read] at missing
        cases missing

/-- Before a line end no type starts, if the next line starts with no word or with a name with
which no type starts. -/
theorem typeHere_misses_of_blank (blank : Blank.solid start.rest = false)
    (names : ∀ form, TypeForm.at? start = some form →
      startsWord (Blank.skip start).rest = true → form = .name)
    (missing : startsWord (Blank.skip start).rest = true →
      (typeHere rules (Blank.skip start)).isDone = false) :
    (typeHere rules).Misses start := by
  cases word : startsWord (Blank.skip start).rest with
  | false => exact typeHere_misses_of_noWord blank word
  | true =>
    apply typeHere_misses_of_choice
    cases starts : TypeForm.at? start with
    | none => exact TypeForm.choice_misses starts
    | some form =>
      cases names form starts word
      apply choice_misses
      intro other _
      by_cases name : other = .name
      · cases name
        apply namedType_misses_of_not_done
        have missing := missing word
        rwa [isDone_typeHere ((at?_skip start).trans starts), parser_skip blank word starts]
          at missing
      · apply TypeForm.misses
        rw [starts]
        simpa using Ne.symm name

end NextLine

end Unclosed.Grammar
