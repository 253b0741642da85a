import Unclosed.Proofs.LastingTokens
import Unclosed.Proofs.ParserTermination

/-!
Types at the end of a line.  The first characters of a type tell which of its forms
it has, so that the others miss; and a type that is followed by nothing, or by
something that starts no type, is the same type when the text goes on.
-/

namespace Unclosed

def TypeExpr.awaitsResult : TypeExpr → Bool
  | .pointer _ elem | .slice _ elem | .array _ _ elem | .map _ _ elem | .chan _ _ elem
  | .ellipsis _ elem => elem.awaitsResult
  | .func _ (.mk _ [] _) => true
  | .func _ (.mk _ [.mk _ type _ _] _) => type.awaitsResult
  | _ => false
termination_by structural type => type

namespace Grammar

open Grammar.Parser

variable {rest place start : Cursor} {form : TypeForm} {word : String} {type : TypeExpr}
  {tail : List Char} {rules : Rules} {limit : Nat}

/-! ### Forms of types -/

inductive TypeForm where
  | pointer | array | map | chan | func | struct | interface | paren | ellipsis | name
deriving DecidableEq

namespace TypeForm

def all : List TypeForm :=
  [pointer, array, map, chan, func, struct, interface, paren, ellipsis, name]

def parser (rules : Rules) : TypeForm → Parser (Span → TypeExpr)
  | pointer => pointerType rules
  | array => arrayOrSliceType rules
  | map => mapType rules
  | chan => chanType rules
  | func => funcType rules
  | struct => structType rules
  | interface => interfaceType rules
  | paren => parenType rules
  | ellipsis => ellipsisType rules
  | name => namedType

def ofWord (letters : List Char) : Option TypeForm :=
  if letters = "map".toList then some map
  else if letters = "chan".toList then some chan
  else if letters = "func".toList then some func
  else if letters = "struct".toList then some struct
  else if letters = "interface".toList then some interface
  else if isName letters then some name
  else none

def ofCharacters (characters : List Char) : Option TypeForm :=
  if ['*'].isPrefixOf characters then some pointer
  else if ['['].isPrefixOf characters then some array
  else if ['('].isPrefixOf characters then some paren
  else if ['.', '.', '.'].isPrefixOf characters then some ellipsis
  else if ['<', '-'].isPrefixOf characters then some chan
  else ofWord (characters.takeWhile isIdentChar)

def at? (start : Cursor) : Option TypeForm := ofCharacters (Blank.skip start).rest

end TypeForm

def choice {α : Type} : List (Parser α) → Parser α
  | [] => fail
  | [parser] => parser
  | parser :: others => parser <|> choice others

theorem typeHere_eq_choice (rules : Rules) :
    typeHere rules = (do
      let start ← here
      let build ← choice (TypeForm.all.map (TypeForm.parser rules))
      let span ← spanFrom start
      pure (build span)) :=
  rfl

section Choice

variable {α ι : Type} {parse : ι → Parser α} {forms : List ι} {start : Cursor}

theorem choice_misses (misses : ∀ form ∈ forms, (parse form).Misses start) :
    (choice (forms.map parse)).Misses start := by
  induction forms with
  | nil => exact ⟨_, rfl⟩
  | cons form others ih =>
    have first := misses form (by simp)
    have later := ih fun other member => misses other (by simp [member])
    cases others with
    | nil => exact first
    | cons second others => exact first.orElse later

theorem choice_eq_done (distinct : forms.Nodup) {form : ι} (member : form ∈ forms)
    (misses : ∀ other ∈ forms, other ≠ form → (parse other).Misses start) {value : α} :
    choice (forms.map parse) start = .done value rest ↔ parse form start = .done value rest := by
  induction forms with
  | nil => cases member
  | cons first others ih =>
    rw [List.nodup_cons] at distinct
    have later : ∀ other ∈ others, other ≠ form → (parse other).Misses start :=
      fun other present => misses other (by simp [present])
    cases others with
    | nil =>
      cases List.mem_singleton.mp member
      rfl
    | cons second others =>
      rcases List.mem_cons.mp member with rfl | inLater
      · have last : (choice ((second :: others).map parse)).Misses start := by
          apply choice_misses
          intro other present
          apply later other present
          rintro rfl
          exact distinct.1 present
        change (parse form <|> choice ((second :: others).map parse)) start = _ ↔ _
        rw [orElse_eq_done, or_iff_left fun found => last.not_done found.2]
      · have other : first ≠ form := by
          rintro rfl
          exact distinct.1 inLater
        have missed := misses first (by simp) other
        rw [← ih distinct.2 inLater later]
        change (parse first <|> choice ((second :: others).map parse)) start = _ ↔ _
        rw [orElse_eq_done, or_iff_right missed.not_done]
        exact and_iff_right missed

end Choice

/-! ### First characters -/

section Forms

variable {tail : List Char} {start : Cursor} {rules : Rules}

theorem isPrefixOf_followedBy (newLine : NewLine tail) (word characters : List Char)
    (inLine : '\n' ∉ word) :
    word.isPrefixOf (characters ++ tail) = word.isPrefixOf characters := by
  apply Bool.eq_iff_iff.mpr
  rw [List.isPrefixOf_iff_prefix, List.isPrefixOf_iff_prefix]
  constructor
  · rintro ⟨more, same⟩
    obtain ⟨rest, rfl⟩ := newLine.starts word same.symm inLine
    exact ⟨rest, rfl⟩
  · exact fun starts => starts.trans (List.prefix_append _ _)

theorem takeWhile_followedBy (newLine : NewLine tail) (characters : List Char) :
    (characters ++ tail).takeWhile isIdentChar = characters.takeWhile isIdentChar := by
  induction characters with
  | nil =>
    cases tail with
    | nil => rfl
    | cons next more =>
      cases newLine next more rfl
      rfl
  | cons next characters ih =>
    by_cases letter : isIdentChar next = true
    · rw [List.cons_append, List.takeWhile_cons_of_pos letter, ih,
        List.takeWhile_cons_of_pos letter]
    · rw [List.cons_append, List.takeWhile_cons_of_neg letter, List.takeWhile_cons_of_neg letter]

namespace TypeForm

theorem ofCharacters_followedBy (newLine : NewLine tail) (characters : List Char) :
    ofCharacters (characters ++ tail) = ofCharacters characters := by
  unfold ofCharacters
  rw [isPrefixOf_followedBy newLine ['*'] _ (by decide),
    isPrefixOf_followedBy newLine ['['] _ (by decide),
    isPrefixOf_followedBy newLine ['('] _ (by decide),
    isPrefixOf_followedBy newLine ['.', '.', '.'] _ (by decide),
    isPrefixOf_followedBy newLine ['<', '-'] _ (by decide), takeWhile_followedBy newLine]

/-- A word of letters starts with none of the signs of types. -/
theorem ofCharacters_of_letter {next : Char} (letter : isIdentChar next = true)
    (more : List Char) :
    ofCharacters (next :: more) = ofWord ((next :: more).takeWhile isIdentChar) := by
  have other (sign : Char) (others : List Char) (noLetter : isIdentChar sign = false) :
      (sign :: others).isPrefixOf (next :: more) = false := by
    have differs : sign ≠ next := by
      rintro rfl
      rw [letter] at noLetter
      cases noLetter
    simp [List.isPrefixOf, differs]
  unfold ofCharacters
  rw [other _ _ (by decide), other _ _ (by decide), other _ _ (by decide), other _ _ (by decide),
    other _ _ (by decide)]
  rfl

theorem ofCharacters_of_not_solid {characters : List Char}
    (blank : Blank.solid characters = false) : ofCharacters characters = none := by
  revert blank
  fun_cases Blank.solid characters with
  | case1 | case2 | case3 => exact fun _ => rfl
  | case4 next rest line block =>
    intro blank
    have space : Blank.isSpace next = true := by simpa using blank
    simp only [Blank.isSpace, Bool.or_eq_true, beq_iff_eq] at space
    rcases space with ((rfl | rfl) | rfl) | rfl <;> rfl

theorem solid_of_at? (starts : at? start = some form) :
    Blank.solid (Blank.skip start).rest = true := by
  cases stops : Blank.solid (Blank.skip start).rest with
  | true => rfl
  | false =>
    rw [at?, ofCharacters_of_not_solid stops] at starts
    cases starts

theorem at?_followedBy (newLine : NewLine tail)
    (stops : Blank.solid (Blank.skip start).rest = true) :
    at? (start.followedBy tail) = at? start := by
  rw [at?, Blank.skip_followedBy_of_solid newLine stops]
  exact ofCharacters_followedBy newLine _

/-! ### Forms that miss -/

theorem after?_eq_none (other : at? start ≠ some form)
    (opens : ∀ more, ofCharacters (word.toList ++ more) = some form) (visible : Visible word) :
    start.after? word = none := by
  cases found : start.after? word with
  | none => rfl
  | some rest =>
    refine absurd ?_ other
    rw [at?, Blank.skip_of_solid (solid_of_after? found visible), Cursor.text_of_after? found]
    exact opens rest.rest

end TypeForm

theorem keyword_misses (other : (Blank.skip start).rest.takeWhile isIdentChar ≠ word.toList)
    (letters : ∀ letter ∈ word.toList, isIdentChar letter = true) :
    (keyword word).Misses start := by
  change Misses (tag word >>= fun _ => sees (satisfy isIdentChar) >>= fun followed =>
    if followed = true then fail else pure ()) (Blank.skip start)
  cases found : (Blank.skip start).after? word with
  | none => exact (tag_misses found).bind
  | some place =>
    have text := Cursor.text_of_after? found
    have followed : (satisfy isIdentChar place).isDone = true := by
      rw [text, List.takeWhile_append_of_pos letters] at other
      obtain ⟨offset, characters⟩ := place
      cases characters with
      | nil => simp at other
      | cons next more =>
        by_cases letter : isIdentChar next = true
        · rw [satisfy, move, Cursor.afterChar?, if_pos letter]
          rfl
        · rw [List.takeWhile_cons_of_neg letter] at other
          simp at other
    have spelled : tag word (Blank.skip start) = .done () place := tag_eq_done.mpr found
    refine ⟨.silent place, ?_⟩
    rw [bind_apply, spelled]
    change (if (satisfy isIdentChar place).isDone = true then fail else pure ()) place = _
    rw [if_pos followed]
    rfl

namespace TypeForm

theorem keyword_misses_of_form (other : at? start ≠ some form)
    (opens : ofWord word.toList = some form)
    (letters : ∀ letter ∈ word.toList, isIdentChar letter = true) :
    (keyword word).Misses start := by
  apply keyword_misses _ letters
  intro same
  apply other
  rw [at?]
  cases text : (Blank.skip start).rest with
  | nil =>
    rw [text] at same
    rw [← same] at opens
    cases opens
  | cons next more =>
    rw [text] at same
    have letter : isIdentChar next = true := by
      by_cases letter : isIdentChar next = true
      · exact letter
      · rw [List.takeWhile_cons_of_neg letter] at same
        rw [← same] at opens
        cases opens
    rw [ofCharacters_of_letter letter, same]
    exact opens

theorem ofWord_of_isName {letters : List Char} (named : isName letters = true) :
    ofWord letters = some name := by
  have reserved (word : String) (isReserved : isName word.toList = false) :
      letters ≠ word.toList := by
    rintro rfl
    rw [named] at isReserved
    cases isReserved
  rw [ofWord, if_neg (reserved _ (by decide)), if_neg (reserved _ (by decide)),
    if_neg (reserved _ (by decide)), if_neg (reserved _ (by decide)),
    if_neg (reserved _ (by decide)), if_pos named]

theorem identifier_misses_of_form (other : at? start ≠ some name) : identifier.Misses start := by
  apply identifier_misses
  rw [Bool.eq_false_iff]
  intro named
  obtain ⟨next, more, text, letter⟩ := identStart_of_isName named
  refine absurd ?_ other
  rw [at?, text, ofCharacters_of_letter (identChar_of_identStart letter), ← text]
  exact ofWord_of_isName named

theorem misses (form : TypeForm) (other : at? start ≠ some form) :
    (form.parser rules).Misses start := by
  cases form with
  | pointer | array | paren | ellipsis =>
    exact (tag_misses (after?_eq_none other (fun _ => rfl) (by decide))).bind
  | map | func | struct | interface => exact (keyword_misses_of_form other rfl (by decide)).bind
  | chan =>
    have noArrow : start.after? "<-" = none := after?_eq_none other (fun _ => rfl) (by decide)
    obtain ⟨fault, missed⟩ : (keyword "chan").Misses start :=
      keyword_misses_of_form other rfl (by decide)
    refine ⟨fault, ?_⟩
    rw [parser, chanType, accept_bind_apply, noArrow]
    dsimp only
    rw [if_neg (by simp), bind_apply, missed]
  | name => exact (identifier_misses_of_form other).bind

/-- The alternatives of a type are those of the form that starts here. -/
theorem choice_eq_done (starts : at? start = some form) {value : Span → TypeExpr} :
    choice (all.map (parser rules)) start = .done value rest
      ↔ form.parser rules start = .done value rest := by
  apply Grammar.choice_eq_done (by decide)
  · cases form <;> decide
  · intro other _ differs
    apply misses
    rw [starts]
    simpa using differs.symm

theorem choice_misses (none : at? start = none) :
    (choice (all.map (parser rules))).Misses start := by
  apply Grammar.choice_misses
  intro form _
  apply misses
  rw [none]
  simp

end TypeForm

theorem typeHere_eq_done :
    typeHere rules start = .done type rest ↔
      ∃ build, choice (TypeForm.all.map (TypeForm.parser rules)) start = .done build rest
        ∧ type = build ⟨start.offset, rest.offset⟩ := by
  rw [typeHere_eq_choice]
  constructor
  · intro parsed
    obtain ⟨build, middle, found, built⟩ := bind_eq_done.mp (show
      (choice (TypeForm.all.map (TypeForm.parser rules)) >>= fun build =>
        spanFrom start >>= fun span => pure (build span)) start = .done type rest from parsed)
    cases built
    exact ⟨build, found, rfl⟩
  · rintro ⟨build, found, rfl⟩
    change (choice (TypeForm.all.map (TypeForm.parser rules)) >>= fun build =>
        spanFrom start >>= fun span => pure (build span)) start = _
    rw [bind_apply, found]
    rfl

theorem isDone_typeHere (starts : TypeForm.at? start = some form) :
    (typeHere rules start).isDone = (form.parser rules start).isDone := by
  apply Bool.eq_iff_iff.mpr
  constructor
  · intro found
    obtain ⟨type, rest, parsed⟩ := Reply.exists_of_isDone found
    obtain ⟨build, chosen, _⟩ := typeHere_eq_done.mp parsed
    rw [(TypeForm.choice_eq_done starts).mp chosen]
    rfl
  · intro found
    obtain ⟨build, rest, parsed⟩ := Reply.exists_of_isDone found
    rw [typeHere_eq_done.mpr ⟨build, (TypeForm.choice_eq_done starts).mpr parsed, rfl⟩]
    rfl

theorem isDone_typeHere_of_none (none : TypeForm.at? start = none) :
    (typeHere rules start).isDone = false := by
  rw [Bool.eq_false_iff]
  intro found
  obtain ⟨type, rest, parsed⟩ := Reply.exists_of_isDone found
  obtain ⟨build, chosen, _⟩ := typeHere_eq_done.mp parsed
  exact absurd chosen (TypeForm.choice_misses none).not_done

theorem form_of_typeHere (parsed : typeHere rules start = .done type rest) :
    ∃ form, TypeForm.at? start = some form := by
  cases starts : TypeForm.at? start with
  | some form => exact ⟨form, rfl⟩
  | none =>
    have missing : (typeHere rules start).isDone = false := isDone_typeHere_of_none starts
    rw [parsed] at missing
    cases missing

/-- A type lasts if the form that it starts with does. -/
theorem typeHere_lasts_of_forms (newLine : NewLine tail) {allowed : TypeExpr → Cursor → Prop}
    (forms : ∀ (form : TypeForm) (span : Span),
      Endures tail (fun build => allowed (build span)) start (form.parser rules)) :
    Endures tail allowed start (typeHere rules) := by
  intro type rest parsed ends
  obtain ⟨form, starts⟩ := form_of_typeHere parsed
  obtain ⟨build, chosen, rfl⟩ := typeHere_eq_done.mp parsed
  have starts' : TypeForm.at? (start.followedBy tail) = some form := by
    rw [TypeForm.at?_followedBy newLine (TypeForm.solid_of_at? starts), starts]
  have lasts := forms form _ build rest ((TypeForm.choice_eq_done starts).mp chosen) ends
  exact typeHere_eq_done.mpr ⟨build, (TypeForm.choice_eq_done starts').mpr lasts, rfl⟩

end Forms

/-! ### The brackets of an array type -/

def arrayLength (rules : Rules) : Parser (Option (Option Expr)) := do
  if ← accepts (symbol "]") then
    pure none
  else if ← accepts (symbol "...") then
    symbol "]"
    pure (some none)
  else
    let length ← rules.expression
    symbol "]"
    pure (some (some length))

def arrayOf : Option (Option Expr) → TypeExpr → Span → TypeExpr
  | none, elem => fun span => .slice span elem
  | some length, elem => fun span => .array span length elem

theorem arrayOrSliceType_eq (rules : Rules) :
    arrayOrSliceType rules = (do
      tag "["
      let length ← arrayLength rules
      let elem ← rules.type
      pure (arrayOf length elem)) := by
  unfold arrayOrSliceType arrayLength
  congr 1
  funext _
  rw [bind_bind]
  congr 1
  funext empty
  cases empty with
  | true => rfl
  | false =>
    rw [if_neg (by simp), if_neg (by simp), bind_bind]
    congr 1
    funext dots
    cases dots with
    | true =>
      rw [if_pos rfl, if_pos rfl, bind_bind]
      rfl
    | false =>
      rw [if_neg (by simp), if_neg (by simp), bind_bind]
      congr 1
      funext length
      rw [bind_bind]
      rfl

theorem arrayLength_tracks (follow : rules.Follow tail limit rules) :
    Tracks tail limit (closes 1) (arrayLength rules) (arrayLength rules) (fun _ => 0)
      fun _ => closes 0 := by
  intro first short
  apply TracksFrom.accepts (symbol_tracks (.closing rfl rfl)) (.refl first _) (by omega)
  · intro rest led
    exact .pure led (by omega) rfl
  · intro rest led
    apply TracksFrom.accepts (symbol_tracks (.plain (by decide))) led (by omega)
    · intro rest led
      apply TracksFrom.bind (symbol_tracks (.closing rfl rfl)) led (first.below _)
      intro _ rest led
      exact .pure led (by omega) rfl
    · intro rest led
      apply TracksFrom.bind (follow.binary true 1 0).tracks led (by omega)
      intro length rest led
      apply TracksFrom.bind (symbol_tracks (.closing rfl rfl)) led (first.below _)
      intro _ rest led
      exact .pure led (by omega) rfl

/-! ### Where a type may end -/

/-- The rules obey the equations of the grammar on texts below the limit, as they stand and
with the tail behind them. -/
structure Rules.Grounded (tail : List Char) (limit : Nat) (rules : Rules) : Prop where
  follow : rules.Follow tail limit rules
  solves : rules.Solves
  room : limit + tail.length ≤ rules.bound

theorem Rules.Grounded.newLine (grounded : rules.Grounded tail limit) : NewLine tail :=
  grounded.follow.newLine

def Cursor.Calm (tail : List Char) (rules : Rules) (place : Cursor) : Prop :=
  (rules.type place).isDone = false → (rules.type (place.followedBy tail)).isDone = false

def TypeEnd (tail : List Char) (rules : Rules) (type : TypeExpr) (place : Cursor) : Prop :=
  type.awaitsResult = true → endsSignature (Blank.skipInLine place) = true ∨ place.Calm tail rules

theorem endsSignature_of_end (empty : place.rest = []) :
    endsSignature (Blank.skipInLine place) = true := by
  obtain ⟨offset, characters⟩ := place
  cases empty
  rfl

theorem Blank.length_skip_lt (short : start.rest.length < limit) :
    (Blank.skip start).rest.length < limit := by
  have := (Blank.reaches_skip start).length_le
  omega

/-- Where a signature may have results, something solid follows on its line. -/
theorem solid_of_endsSignature (start_eq : start = Blank.skipInLine place)
    (goesOn : endsSignature start = false) : Blank.solid start.rest = true := by
  have stays := (Blank.skips_skipInLine place).stays
  rw [← start_eq] at stays
  cases stays with
  | atEnd offset => cases goesOn
  | solid stops => exact stops
  | lineEnd _ offset rest => cases goesOn
  | lineComment _ offset rest => cases goesOn
  | blockComment _ => cases goesOn

section Types

variable {tail : List Char} {rules : Rules} {limit : Nat} (grounded : rules.Grounded tail limit)
  {start : Cursor} {allowed : (Span → TypeExpr) → Cursor → Prop}
include grounded

section

variable (short : start.rest.length < limit)
include short

theorem grounded_typeHere : rules.typeHere start = typeHere rules start := by
  have room := grounded.room
  exact grounded.solves.typeHere start (by omega)

theorem grounded_typeHere_followedBy :
    rules.typeHere (start.followedBy tail) = typeHere rules (start.followedBy tail) := by
  have room := grounded.room
  apply grounded.solves.typeHere
  rw [Cursor.followedBy, List.length_append]
  omega

theorem solid_of_type (parsed : rules.type start = .done type rest) :
    Blank.solid (Blank.skip start).rest = true := by
  change rules.typeHere (Blank.skip start) = _ at parsed
  rw [grounded_typeHere grounded (Blank.length_skip_lt short)] at parsed
  obtain ⟨form, starts⟩ := form_of_typeHere parsed
  have stops := TypeForm.solid_of_at? starts
  rwa [Blank.skip_skip] at stops

/-- A place is calm if the form of type that it starts with, if any, fails alike. -/
theorem calm_of_form (stops : Blank.solid (Blank.skip start).rest = true)
    (alike : ∀ form, TypeForm.at? start = some form →
      (form.parser rules (Blank.skip start)).isDone = false →
      (form.parser rules ((Blank.skip start).followedBy tail)).isDone = false) :
    start.Calm tail rules := by
  have newLine := grounded.newLine
  intro missing
  change (rules.typeHere (Blank.skip start)).isDone = false at missing
  change (rules.typeHere (Blank.skip (start.followedBy tail))).isDone = false
  have short := Blank.length_skip_lt short
  rw [grounded_typeHere grounded short] at missing
  rw [Blank.skip_followedBy_of_solid newLine stops, grounded_typeHere_followedBy grounded short]
  have same : TypeForm.at? (Blank.skip start) = TypeForm.at? start := by
    rw [TypeForm.at?, Blank.skip_skip, TypeForm.at?]
  have same' : TypeForm.at? ((Blank.skip start).followedBy tail) = TypeForm.at? start := by
    rw [TypeForm.at?_followedBy newLine (by rwa [Blank.skip_skip]), same]
  cases starts : TypeForm.at? start with
  | none => exact isDone_typeHere_of_none (same'.trans starts)
  | some form =>
    rw [isDone_typeHere (same.trans starts)] at missing
    rw [isDone_typeHere (same'.trans starts)]
    exact alike form starts missing

end

/-! ### Types that last -/

variable (types : ∀ start : Cursor, start.rest.length < limit →
  Endures tail (TypeEnd tail rules) start rules.typeHere) (span : Span)

section TypesBelow
include types

theorem type_lasts (short : start.rest.length < limit) :
    Endures tail (TypeEnd tail rules) start rules.type := by
  apply Lasts.blanks grounded.newLine
  · intro type rest parsed
    exact solid_of_type grounded short parsed
  · exact types _ (Blank.length_skip_lt short)

theorem elem_lasts {build : TypeExpr → Span → TypeExpr} (short : start.rest.length < limit)
    (same : ∀ elem, (build elem span).awaitsResult = elem.awaitsResult) :
    Endures tail (fun build => TypeEnd tail rules (build span)) start
      (rules.type >>= fun elem => pure (build elem)) := by
  apply Lasts.bind (type_lasts grounded types short)
  · intro elem middle build rest _ given ends
    cases given
    rw [TypeEnd, same] at ends
    exact ends
  · intro elem middle _
    exact .pure

variable (short : start.rest.length < limit + 1)
include short

theorem pointerType_lasts :
    Endures tail (fun build => TypeEnd tail rules (build span)) start (pointerType rules) := by
  apply Lasts.tag grounded.newLine (by decide) (by decide)
  intro middle shorter
  exact elem_lasts grounded types span (by omega) fun _ => rfl

theorem ellipsisType_lasts :
    Endures tail (fun build => TypeEnd tail rules (build span)) start (ellipsisType rules) := by
  apply Lasts.tag grounded.newLine (by decide) (by decide)
  intro middle shorter
  exact elem_lasts grounded types span (by omega) fun _ => rfl

theorem arrayOrSliceType_lasts :
    Endures tail (fun build => TypeEnd tail rules (build span)) start (arrayOrSliceType rules) := by
  have newLine := grounded.newLine
  rw [arrayOrSliceType_eq]
  apply Lasts.tag newLine (by decide) (by decide)
  intro middle shorter
  apply Lasts.closing newLine (arrayLength_tracks grounded.follow) (by omega)
  intro length middle shorter
  exact elem_lasts grounded types span (by omega) fun elem => by cases length <;> rfl

theorem mapType_lasts :
    Endures tail (fun build => TypeEnd tail rules (build span)) start (mapType rules) := by
  have newLine := grounded.newLine
  apply Lasts.keyword newLine (by decide) (by decide)
  intro middle shorter
  apply Lasts.symbol newLine (by decide) (by decide)
  intro middle shorter
  apply Lasts.bracket newLine (type_outlined grounded.follow 0).tracks
    (symbol_tracks (.closing rfl rfl)) (by omega)
  intro key middle shorter
  exact elem_lasts grounded types span (by omega) fun _ => rfl

theorem chanType_lasts :
    Endures tail (fun build => TypeEnd tail rules (build span)) start (chanType rules) := by
  have newLine := grounded.newLine
  apply Lasts.accept newLine (by decide)
  · intro middle arrow
    have := (Cursor.reaches_of_after? arrow).length_le
    apply Lasts.keyword newLine (by decide) (by decide)
    intro middle shorter
    exact elem_lasts grounded types span (by omega) fun _ => rfl
  · intro _
    apply Lasts.keyword newLine (by decide) (by decide)
    intro middle shorter
    apply Lasts.accepts (symbol_lasts newLine (by decide) (by decide))
    · intro result rest missing parsed _
      obtain ⟨elem, place, found, _⟩ := bind_eq_done.mp parsed
      have stops := solid_of_type grounded (by omega) found
      rw [(symbol_matches newLine stops (by decide)).isDone, missing]
    · intro middle arrow
      have := (reaches_of_symbol arrow).length_le
      exact elem_lasts grounded types span (by omega) fun _ => rfl
    · intro _
      exact elem_lasts grounded types span (by omega) fun _ => rfl

omit short in
theorem results_lasts (start_eq : start = Blank.skipInLine place)
    (short : start.rest.length < limit) :
    Endures tail
      (fun fields rest =>
        ∃ span params extent, TypeEnd tail rules (.func span (.mk params fields extent)) rest)
      start (results rules) := by
  have newLine := grounded.newLine
  apply Lasts.here
  rw [endsSignature_followedBy newLine]
  cases ends : endsSignature start with
  | true => exact .pure
  | false =>
    rw [if_neg (by simp)]
    apply Lasts.accept newLine (by decide)
    · intro middle opened
      have := (Cursor.reaches_of_after? opened).length_le
      apply Lasts.bracket newLine (fieldEntries_outlined grounded.follow 0).tracks
        (symbol_tracks (.closing rfl rfl)) (by omega)
      intro entries middle _
      exact .pure
    · intro _
      apply Lasts.probe (types start short)
      · rintro type middle result rest _ given ⟨span, params, extent, final⟩
        obtain ⟨rfl, rfl⟩ := pure_eq_done.mp given
        exact final
      · rintro result rest missing given ⟨span, params, extent, final⟩
        obtain ⟨rfl, rfl⟩ := pure_eq_done.mp given
        have stops := solid_of_endsSignature start_eq ends
        rcases final rfl with ended | calm
        · rw [start_eq, Blank.skipInLine_skipInLine, ← start_eq, ends] at ended
          cases ended
        · have settled := Blank.skip_of_solid stops
          have settled' : Blank.skip (start.followedBy tail) = start.followedBy tail :=
            Blank.skip_of_solid (Blank.solid_followedBy newLine stops)
          have missing' : (rules.typeHere (Blank.skip start)).isDone = false := by rwa [settled]
          have calm := calm missing'
          change (rules.typeHere (Blank.skip (start.followedBy tail))).isDone = false at calm
          rwa [settled'] at calm
      · intro type middle _
        exact .pure
      · intro _
        exact .pure

theorem signature_lasts :
    Endures tail (fun signature rest => ∃ span, TypeEnd tail rules (.func span signature) rest)
      start (signature rules) := by
  have newLine := grounded.newLine
  apply Lasts.blanks newLine
  · intro result rest parsed
    obtain ⟨_, middle, opened, _⟩ := bind_eq_done.mp (show
      (tag "(" >>= fun _ => _) (Blank.skip start) = _ from parsed)
    exact solid_of_after? (tag_eq_done.mp opened) (by decide)
  · apply Lasts.here
    apply Lasts.tag newLine (by decide) (by decide)
    intro middle shorter
    have := (Blank.reaches_skip start).length_le
    apply Lasts.bracket newLine (fieldEntries_outlined grounded.follow 0).tracks
      (symbol_tracks (.closing rfl rfl)) (by omega)
    intro entries middle shorter
    apply Lasts.lineBlanks newLine
    have := (Blank.reaches_skipInLine middle).length_le
    apply Lasts.bind (results_lasts grounded types rfl (by omega))
    · rintro fields middle result rest _ given ⟨span, ends⟩
      cases given
      exact ⟨span, _, _, ends⟩
    · intro fields middle _
      apply Lasts.span
      intro span
      exact .pure

theorem funcType_lasts :
    Endures tail (fun build => TypeEnd tail rules (build span)) start (funcType rules) := by
  apply Lasts.keyword grounded.newLine (by decide) (by decide)
  intro middle shorter
  apply Lasts.map
  apply (signature_lasts grounded types (by omega)).mono
  intro signature rest ends
  exact ⟨span, ends⟩

end TypesBelow

section

variable (short : start.rest.length < limit + 1)
include short

theorem structType_lasts : Endures tail allowed start (structType rules) := by
  have newLine := grounded.newLine
  have field := structField_outlined grounded.follow
  apply Lasts.keyword newLine (by decide) (by decide)
  intro middle shorter
  apply Lasts.symbol newLine (by decide) (by decide)
  intro middle shorter
  apply Lasts.closing newLine (itemsUntil_draws grounded.follow (.closing rfl rfl) fun depth =>
    context_draws _ (field depth)).tracks (by omega)
  intro fields middle _
  exact .pure

theorem interfaceType_lasts : Endures tail allowed start (interfaceType rules) := by
  have newLine := grounded.newLine
  have element := interfaceElement_outlined grounded.follow
  apply Lasts.keyword newLine (by decide) (by decide)
  intro middle shorter
  apply Lasts.symbol newLine (by decide) (by decide)
  intro middle shorter
  apply Lasts.closing newLine (itemsUntil_draws grounded.follow (.closing rfl rfl) fun depth =>
    context_draws _ (element depth)).tracks (by omega)
  intro elements middle _
  exact .pure

theorem parenType_lasts : Endures tail allowed start (parenType rules) := by
  have newLine := grounded.newLine
  apply Lasts.tag newLine (by decide) (by decide)
  intro middle shorter
  apply Lasts.bracket newLine (type_outlined grounded.follow 0).tracks
    (symbol_tracks (.closing rfl rfl)) (by omega)
  intro inner middle _
  exact .pure

end

omit grounded in
theorem namedType_lasts (newLine : NewLine tail) :
    Endures tail allowed start namedType := by
  apply Lasts.andThen (identifier_lasts newLine)
  intro first middle _
  have alike : (lineSymbol "." middle).Matches tail (lineSymbol "." (middle.followedBy tail)) :=
    matches_of_plain newLine fun _ => lineSymbol_tracks (.plain (by decide))
  apply Lasts.accepts (.of_matches alike)
  · intro result rest missing _ _
    rw [alike.isDone, missing]
  · intro middle _
    apply Lasts.andThen (identifier_lasts newLine)
    intro name middle _
    exact .pure
  · intro _
    exact .pure

include types in
theorem typeHere_lasts (short : start.rest.length < limit + 1) :
    Endures tail (TypeEnd tail rules) start (typeHere rules) := by
  apply typeHere_lasts_of_forms grounded.newLine
  intro form span
  cases form with
  | pointer => exact pointerType_lasts grounded types span short
  | array => exact arrayOrSliceType_lasts grounded types span short
  | map => exact mapType_lasts grounded types span short
  | chan => exact chanType_lasts grounded types span short
  | func => exact funcType_lasts grounded types span short
  | struct => exact structType_lasts grounded short
  | interface => exact interfaceType_lasts grounded short
  | paren => exact parenType_lasts grounded short
  | ellipsis => exact ellipsisType_lasts grounded types span short
  | name => exact namedType_lasts grounded.newLine

end Types

end Grammar
end Unclosed
