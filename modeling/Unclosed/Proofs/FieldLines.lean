import Unclosed.Proofs.FieldEnds

/-!
Lines of struct fields.  A field that its line declares is read from the line also
when other lines follow, with one exception: a line that holds a single name is an
embedded field when it stands alone, but takes its type from the next line if that
starts with a word and a type can be read from there.
-/

namespace Unclosed.Grammar

open Grammar.Parser

variable {names : List Ident} {type : TypeExpr} {tag : Option String}
  {stop last place line rest : Cursor} {field : Field} {name : Ident} {rules : Rules}
  {tail : List Char} {offset : Nat} {fields : List Field}

/-! ### A line and what follows it -/

def Declares (rules : Rules) (start : Cursor) (field : Field) : Prop :=
  ∃ names type tag rest stop last,
    (namedField rules (Blank.skip start) = .done (names, type) rest ∨
      embeddedField rules (Blank.skip start) = .done (names, type) rest) ∧
    FieldEnd rest tag stop last ∧
    field = .mk names type tag ⟨(Blank.skip start).offset, stop.offset⟩

section Lines

variable {tail : List Char} {rules : Rules} {limit : Nat} (grounded : rules.Grounded tail limit)
  {start rest : Cursor}

theorem Cursor.Reaches.offset_of_end {least : Nat} (reaches : start.Reaches least rest)
    (empty : rest.rest = []) : rest.offset = start.offset + byteLength start.rest := by
  obtain ⟨read, _, characters, offset⟩ := reaches
  rw [offset, characters, empty, List.append_nil]

theorem structField_of_parts (found : (namedField rules <|> embeddedField rules) (Blank.skip start)
      = .done (names, type) rest) (tagged : fieldTag (Blank.skipInLine rest) = .done tag stop) :
    structField rules start
      = .done (.mk names type tag ⟨(Blank.skip start).offset, stop.offset⟩) stop := by
  change ((namedField rules <|> embeddedField rules) >>= fun found => _) (Blank.skip start) = _
  rw [bind_apply, found]
  change (fieldTag >>= fun tag => _) (Blank.skipInLine rest) = _
  rw [bind_apply, tagged]
  rfl

theorem parts_of_structField (read : structField rules start = .done field stop) :
    ∃ names type rest tag, (namedField rules <|> embeddedField rules) (Blank.skip start)
        = .done (names, type) rest ∧
      fieldTag (Blank.skipInLine rest) = .done tag stop ∧
      field = .mk names type tag ⟨(Blank.skip start).offset, stop.offset⟩ := by
  obtain ⟨⟨names, type⟩, rest, found, read⟩ := bind_eq_done.mp (show
    ((namedField rules <|> embeddedField rules) >>= fun found => _) (Blank.skip start) = _ from read)
  obtain ⟨tag, _, tagged, given⟩ := bind_eq_done.mp (show
    (fieldTag >>= fun tag => _) (Blank.skipInLine rest) = _ from read)
  cases given
  exact ⟨names, type, rest, tag, found, tagged, rfl⟩

include grounded

/-- Where a dot, a tag or a semicolon stands on the line, neither a comma nor a type follows. -/
theorem apart_of_signs (short : start.rest.length < limit)
    (signs : startsAmong ['.', '"', '`', ';'] (Blank.skipInLine start).rest = true)
    (none : TypeForm.ofCharacters (Blank.skipInLine start).rest = none) :
    (symbol ",").Misses (start.followedBy tail) ∧
      rules.typeHere.Misses (Blank.skipInLine (start.followedBy tail)) := by
  have newLine := grounded.newLine
  have stops := solid_of_startsAmong signs (by decide)
  have settled := Blank.skip_eq_skipInLine stops
  have shorter := Nat.lt_of_le_of_lt (Blank.reaches_skipInLine start).length_le short
  constructor
  · apply comma_misses_of_noComma newLine
    rw [NoComma, settled]
    refine ⟨stops, ?_⟩
    obtain ⟨next, more, text, member⟩ := head_of_startsAmong signs
    apply after?_eq_none
    rw [text]
    have other : next ≠ ',' := by
      rintro rfl
      exact absurd member (by decide)
    simpa using other
  · rw [Misses, Blank.skipInLine_followedBy newLine, grounded_typeHere_followedBy grounded shorter]
    apply typeHere_misses_of_choice
    apply TypeForm.choice_misses
    have same := Blank.skip_of_solid stops
    rw [TypeForm.at?_followedBy newLine (by rwa [same]), TypeForm.at?, same, none]

/-- Where an embedded field is read no named one is, unless the line holds a single name and a
type is read behind it. -/
theorem namedField_misses_of_embedded (short : start.rest.length < limit)
    (read : embeddedField rules start = .done (names, type) rest)
    (fieldEnd : FieldEnd rest tag stop last)
    (clear : ∀ name middle, identifier start = .done name middle → (Blank.skip middle).rest = [] →
      (symbol ",").Misses (middle.followedBy tail) ∧
      rules.typeHere.Misses (Blank.skipInLine (middle.followedBy tail))) :
    (namedField rules).Misses (start.followedBy tail) := by
  have newLine := grounded.newLine
  obtain ⟨type, _, parsed, given⟩ := bind_eq_done.mp read
  cases given
  rw [grounded_typeHere grounded short] at parsed
  obtain ⟨form, starts⟩ := form_of_typeHere parsed
  obtain ⟨build, chosen, _⟩ := typeHere_eq_done.mp parsed
  have formRead := (TypeForm.choice_eq_done starts).mp chosen
  have stops := TypeForm.solid_of_at? starts
  by_cases name : form = .name
  · cases name
    obtain ⟨name, middle, named, behind⟩ := behind_embedded_name formRead fieldEnd
    have lasts : Endures tail anywhere start identifier := identifier_lasts newLine
    have room := grounded.room
    have apart : (symbol ",").Misses (middle.followedBy tail) ∧
        rules.typeHere.Misses (Blank.skipInLine (middle.followedBy tail)) := by
      rcases behind with empty | ⟨signs, none⟩
      · exact clear name middle named empty
      · have := (grounded.solves.reaches .identifier (by omega) named).length_le
        exact apart_of_signs grounded (by omega) signs none
    obtain ⟨noComma, noType⟩ := apart
    rw [Misses, namedField_of_name (lasts name middle named trivial) noComma (by omega)]
    exact noType.bind
  · apply namedField_misses_of_identifier
    apply TypeForm.identifier_misses_of_form
    rw [TypeForm.at?_followedBy newLine stops, starts]
    simpa using name

omit grounded in
theorem form_of_namedField {found : List Ident × TypeExpr}
    (read : namedField rules start = .done found rest) : TypeForm.at? start = some .name := by
  obtain ⟨_, _, separated, _⟩ := bind_eq_done.mp read
  obtain ⟨_, _, named, _⟩ := bind_eq_done.mp separated
  have isName := name_of_identifier named
  obtain ⟨next, more, text, letter⟩ := identStart_of_isName isName
  rw [TypeForm.at?, text, TypeForm.ofCharacters_of_letter (identChar_of_identStart letter), ← text]
  exact TypeForm.ofWord_of_isName isName

section

variable (short : start.rest.length < limit)
include short

variable (declares : Declares rules start field)
include declares

theorem form_of_declares : ∃ form, TypeForm.at? start = some form := by
  obtain ⟨names, type, tag, rest, stop, last, read, -, -⟩ := declares
  rw [← at?_skip]
  rcases read with read | read
  · exact ⟨.name, form_of_namedField read⟩
  · obtain ⟨_, _, parsed, _⟩ := bind_eq_done.mp read
    rw [grounded_typeHere grounded (Blank.length_skip_lt short)] at parsed
    exact form_of_typeHere parsed

theorem skip_of_declares :
    Blank.skip (start.followedBy tail) = (Blank.skip start).followedBy tail := by
  obtain ⟨form, starts⟩ := form_of_declares grounded short declares
  exact Blank.skip_followedBy_of_solid grounded.newLine (TypeForm.solid_of_at? starts)

theorem structField_of_line
    (clear : ∀ name middle, identifier (Blank.skip start) = .done name middle →
      (Blank.skip middle).rest = [] → (symbol ",").Misses (middle.followedBy tail) ∧
      rules.typeHere.Misses (Blank.skipInLine (middle.followedBy tail))) :
    ∃ stop last, structField rules (start.followedBy tail) = .done field stop ∧
      statementEnd stop = .done () last ∧
      Blank.skip last = Blank.skip ⟨start.offset + byteLength start.rest, tail⟩ := by
  have settled := skip_of_declares grounded short declares
  obtain ⟨names, type, tag, rest, stop, last, read, fieldEnd, rfl⟩ := declares
  have newLine := grounded.newLine
  have room := grounded.room
  have shorter := Blank.length_skip_lt short
  have reaches : (Blank.skip start).Reaches 0 rest := by
    rcases read with read | read
    · exact (grounded.solves.reaches .namedField (by omega) read).mono (Nat.zero_le _)
    · exact (grounded.solves.reaches .embeddedField (by omega) read).mono (Nat.zero_le _)
  have within := reaches.length_le
  have typeEnd := fieldEnd.typeEnd grounded (by omega) type
  obtain ⟨tagged, last', ended, after⟩ := fieldEnd.followedBy newLine
  have found : (namedField rules <|> embeddedField rules) ((Blank.skip start).followedBy tail)
      = .done (names, type) (rest.followedBy tail) := by
    rcases read with read | read
    · exact orElse_eq_done.mpr
        (.inl (namedField_lasts grounded shorter (names, type) rest read typeEnd))
    · have misses := namedField_misses_of_embedded grounded shorter read fieldEnd clear
      exact orElse_eq_done.mpr
        (.inr ⟨misses, embeddedField_lasts grounded shorter (names, type) rest read typeEnd⟩)
  rw [← settled] at found
  refine ⟨stop.followedBy tail, last', ?_, ended, ?_⟩
  · rw [structField_of_parts found tagged, settled]
    rfl
  · have through := ((Blank.reaches_skip start).trans reaches).trans
      (fieldEnd.reaches grounded.solves (by omega))
    rw [after, through.offset_of_end fieldEnd.complete]

end

/-- A line with a single name that takes a type from behind it declares a named field. -/
theorem names_of_typed_name {middle : Cursor}
    (named : identifier (Blank.skip start) = .done name middle)
    (noComma : (symbol ",").Misses (middle.followedBy tail)) (bounded : 0 < rules.bound)
    (typed : (rules.typeHere (Blank.skipInLine (middle.followedBy tail))).isDone = true)
    (read : structField rules (start.followedBy tail) = .done field stop) :
    field.names = [name] := by
  have newLine := grounded.newLine
  have stops := solid_of_identifier named
  rw [Blank.skip_skip] at stops
  have lasts : Endures tail anywhere (Blank.skip start) identifier :=
    identifier_lasts newLine
  obtain ⟨type, rest, parsed⟩ := Reply.exists_of_isDone typed
  have found : namedField rules (Blank.skip (start.followedBy tail)) = .done ([name], type) rest := by
    rw [Blank.skip_followedBy_of_solid newLine stops,
      namedField_of_name (lasts name middle named trivial) noComma bounded, bind_apply, parsed]
    rfl
  obtain ⟨names, _, _, _, first, -, rfl⟩ := parts_of_structField read
  rw [orElse_eq_done.mpr (.inl found)] at first
  cases first
  rfl

end Lines

/-! ### The line behind a single name -/

def holdsName (line : Cursor) : Bool :=
  match identifier line with
  | .done _ rest => (Blank.skip rest).rest.isEmpty
  | _ => false

def wordTypeAt (place : Cursor) : Bool :=
  startsWord (Blank.skip place).rest && (typeExpr (.forText place) place).isDone

theorem wordTypeAt_eq (solves : rules.Solves) (short : place.rest.length < rules.bound) :
    wordTypeAt place =
      (startsWord (Blank.skip place).rest && (typeHere rules (Blank.skip place)).isDone) := by
  have same : typeExpr (.forText place) place = typeHere rules (Blank.skip place) :=
    solves.parser_eq .typeExpr short
  rw [wordTypeAt, same]

theorem holdsName_iff :
    holdsName line = true ↔
      ∃ name rest, identifier line = .done name rest ∧ (Blank.skip rest).rest = [] := by
  unfold holdsName
  cases identifier line with
  | done name rest =>
    rw [List.isEmpty_iff]
    constructor
    · exact fun ends => ⟨name, rest, rfl, ends⟩
    · rintro ⟨_, _, ⟨⟩, ends⟩
      exact ends
  | miss fault => simp
  | halt fault => simp

/-- Behind the line no comma follows, and the forms of types other than names are types. -/
structure FieldsFollow (rules : Rules) (place : Cursor) : Prop where
  noComma : (Blank.skip place).after? "," = none
  typed : ∀ form, TypeForm.at? place = some form → form ≠ .name →
    startsWord (Blank.skip place).rest = true → (typeHere rules (Blank.skip place)).isDone = true

section SingleNames

variable {tail more : List Char} {rules : Rules} {limit : Nat}
  (grounded : rules.Grounded tail limit) {middle : Cursor}

theorem blank_behind_name (newLine : NewLine tail) (tail_eq : tail = '\n' :: more)
    (ends : (Blank.skip middle).rest = []) :
    Blank.solid (Blank.skipInLine (middle.followedBy tail)).rest = false := by
  rw [Bool.eq_false_iff]
  intro stops
  have settled := Blank.skip_of_solid stops
  rw [Blank.skip_skipInLine, Blank.skip_followedBy_of_end newLine ends,
    Blank.skipInLine_followedBy newLine] at settled
  have lengths := congrArg (fun place : Cursor => place.rest.length) settled
  have passed := (Blank.reaches_skip ⟨(Blank.skip middle).offset + 1, more⟩).length_le
  subst tail_eq
  change (Blank.skip ⟨(Blank.skip middle).offset + 1, more⟩).rest.length = _ at lengths
  rw [Cursor.followedBy, List.length_append, List.length_cons] at lengths
  dsimp only at passed
  omega

include grounded

/-- A line with a single name that no type follows in the next line. -/
theorem apart_of_line_end (tail_eq : tail = '\n' :: more) (short : middle.rest.length < limit)
    (ends : (Blank.skip middle).rest = [])
    (following : FieldsFollow rules ⟨(Blank.skip middle).offset, tail⟩) :
    (symbol ",").Misses (middle.followedBy tail) ∧
      (wordTypeAt ⟨(Blank.skip middle).offset, tail⟩ = false →
        rules.typeHere.Misses (Blank.skipInLine (middle.followedBy tail))) ∧
      (wordTypeAt ⟨(Blank.skip middle).offset, tail⟩ = true →
        (rules.typeHere (Blank.skipInLine (middle.followedBy tail))).isDone = true) := by
  have newLine := grounded.newLine
  have room := grounded.room
  have shorter := Nat.lt_of_le_of_lt (Blank.reaches_skipInLine middle).length_le short
  have blank := blank_behind_name newLine tail_eq ends
  have same : Blank.skip (Blank.skipInLine (middle.followedBy tail)) =
      Blank.skip ⟨(Blank.skip middle).offset, tail⟩ := by
    rw [Blank.skip_skipInLine, Blank.skip_followedBy_of_end newLine ends]
  have known : rules.typeHere (Blank.skipInLine (middle.followedBy tail)) =
      typeHere rules (Blank.skipInLine (middle.followedBy tail)) := by
    rw [Blank.skipInLine_followedBy newLine]
    exact grounded_typeHere_followedBy grounded shorter
  have answer := wordTypeAt_eq grounded.solves
    (show (⟨(Blank.skip middle).offset, tail⟩ : Cursor).rest.length < rules.bound by
      dsimp only
      omega)
  refine ⟨?_, ?_, ?_⟩
  · apply tag_misses
    rw [Blank.skip_followedBy_of_end newLine ends]
    exact following.noComma
  · intro wordless
    rw [Misses, known]
    rw [answer] at wordless
    have missing (word : startsWord (Blank.skip (Blank.skipInLine
        (middle.followedBy tail))).rest = true) :
        (typeHere rules (Blank.skip (Blank.skipInLine (middle.followedBy tail)))).isDone = false := by
      rw [same] at word ⊢
      rwa [word, Bool.true_and] at wordless
    refine typeHere_misses_of_blank blank ?_ missing
    intro form starts word
    have missing := missing word
    rw [TypeForm.at?, same, ← TypeForm.at?] at starts
    rw [same] at word missing
    by_cases name : form = .name
    · exact name
    · rw [following.typed form starts name word] at missing
      cases missing
  · intro typed
    rw [answer, Bool.and_eq_true, ← same] at typed
    rw [known, isDone_typeHere_of_word blank typed.1]
    exact typed.2

variable {start : Cursor} {field : Field}

omit grounded in
theorem end_of_name (solves : rules.Solves) (short : start.rest.length < rules.bound)
    (named : identifier start = .done name middle) (ends : (Blank.skip middle).rest = []) :
    (Blank.skip middle).offset = start.offset + byteLength start.rest :=
  ((solves.reaches .identifier short named).trans (Blank.reaches_skip middle)).offset_of_end ends

/-- A line whose field is read also when other lines follow. -/
theorem structField_of_separate (tail_eq : tail = '\n' :: more) (short : start.rest.length < limit)
    (declares : Declares rules start field)
    (following : FieldsFollow rules ⟨start.offset + byteLength start.rest, tail⟩)
    (apart : (holdsName start && wordTypeAt ⟨start.offset + byteLength start.rest, tail⟩) = false) :
    ∃ stop last, structField rules (start.followedBy tail) = .done field stop ∧
      statementEnd stop = .done () last ∧
      Blank.skip last = Blank.skip ⟨start.offset + byteLength start.rest, tail⟩ := by
  apply structField_of_line grounded short declares
  intro name middle named ends
  rw [identifier_skip] at named
  have room := grounded.room
  have finish := end_of_name grounded.solves (by omega) named ends
  rw [← finish] at following apart
  rw [holdsName_iff.mpr ⟨name, middle, named, ends⟩, Bool.true_and] at apart
  have := (grounded.solves.reaches .identifier (by omega) named).length_le
  have line := apart_of_line_end grounded tail_eq (by omega) ends following
  exact ⟨line.1, line.2.1 apart⟩

omit grounded in
theorem names_of_holdsName (solves : rules.Solves) (short : start.rest.length < rules.bound)
    (declares : Declares rules start field) (single : holdsName start = true) :
    field.names = [] := by
  obtain ⟨names, type, tag, rest, stop, last, read | read, -, rfl⟩ := declares
  · obtain ⟨name, middle, named, ends⟩ := holdsName_iff.mp single
    have within := (solves.reaches .identifier short named).length_le
    have inLine := (Blank.reaches_skipInLine middle).length_le
    have noComma : (symbol ",").Misses middle := tag_misses (after?_eq_none (by rw [ends]; rfl))
    rw [← identifier_skip] at named
    rw [namedField_of_name named noComma (by omega)] at read
    obtain ⟨type, _, parsed, _⟩ := bind_eq_done.mp read
    rw [solves.typeHere _ (by omega)] at parsed
    obtain ⟨form, starts⟩ := form_of_typeHere parsed
    rw [TypeForm.at?, Blank.skip_skipInLine, ends] at starts
    cases starts
  · obtain ⟨_, _, _, given⟩ := bind_eq_done.mp read
    cases given
    rfl

/-- A line with a single name whose field takes its type from the next line. -/
theorem structField_of_typed_name (tail_eq : tail = '\n' :: more)
    (short : start.rest.length < limit) (declares : Declares rules start field)
    (following : FieldsFollow rules ⟨start.offset + byteLength start.rest, tail⟩)
    (typed : (holdsName start && wordTypeAt ⟨start.offset + byteLength start.rest, tail⟩) = true) :
    structField rules (start.followedBy tail) ≠ .done field stop := by
  intro read
  rw [Bool.and_eq_true] at typed
  obtain ⟨single, typed⟩ := typed
  have room := grounded.room
  have embedded := names_of_holdsName grounded.solves (by omega) declares single
  obtain ⟨name, middle, named, ends⟩ := holdsName_iff.mp single
  have finish := end_of_name grounded.solves (by omega) named ends
  rw [← finish] at following typed
  have := (grounded.solves.reaches .identifier (by omega) named).length_le
  have line := apart_of_line_end grounded tail_eq (by omega) ends following
  rw [← identifier_skip] at named
  have names := names_of_typed_name grounded named line.1 (by omega) (line.2.2 typed) read
  rw [embedded] at names
  cases names

end SingleNames

/-! ### The lines of a struct -/

def bodyText : List String → List Char
  | [] => ['\x7d']
  | line :: later => line.toList ++ '\n' :: bodyText later

/-- Each line, at its place in the struct and without the others, declares its field. -/
inductive FieldLines : Nat → List String → List Field → Prop where
  | nil (offset : Nat) : FieldLines offset [] []
  | cons {offset : Nat} {line : String} {lines : List String} {field : Field} {fields : List Field}
      (declares : Declares (.forText ⟨offset, line.toList⟩) ⟨offset, line.toList⟩ field)
      (later : FieldLines (offset + line.utf8ByteSize + 1) lines fields) :
      FieldLines offset (line :: lines) (field :: fields)

/-- No line with a single name stands before a line that starts with a word and with a type. -/
def separate : Nat → List String → Bool
  | _, [] => true
  | offset, line :: later =>
    !(holdsName ⟨offset, line.toList⟩ &&
      wordTypeAt ⟨offset + line.utf8ByteSize, '\n' :: bodyText later⟩) &&
    separate (offset + line.utf8ByteSize + 1) later

section Bodies

variable {rules : Rules} {start : Cursor} {field : Field}

theorem fieldsFollow_end (rules : Rules) (offset : Nat) :
    FieldsFollow rules ⟨offset, '\n' :: bodyText []⟩ where
  noComma := rfl
  typed := by
    intro form starts
    cases starts

theorem fieldsFollow_line {limit : Nat} (grounded : rules.Grounded tail limit)
    (short : start.rest.length < limit) (declares : Declares rules start field)
    (next : start.offset = offset + 1) :
    FieldsFollow rules ⟨offset, '\n' :: (start.rest ++ tail)⟩ := by
  have newLine := grounded.newLine
  have shorter := Blank.length_skip_lt short
  have settled : Blank.skip ⟨offset, '\n' :: (start.rest ++ tail)⟩ =
      (Blank.skip start).followedBy tail := by
    rw [← skip_of_declares grounded short declares, Cursor.followedBy, next]
    rfl
  have sameForm : TypeForm.at? ⟨offset, '\n' :: (start.rest ++ tail)⟩ = TypeForm.at? start := by
    rw [TypeForm.at?, settled]
    exact TypeForm.ofCharacters_followedBy newLine _
  obtain ⟨form, starts⟩ := form_of_declares grounded short declares
  refine ⟨after?_of_form (sameForm.trans starts) "," fun _ => rfl, ?_⟩
  intro other startsOther notName _
  rw [settled]
  obtain ⟨names, type, tag, rest, stop, last, read | read, fieldEnd, -⟩ := declares
  · rw [sameForm, ← at?_skip, form_of_namedField read] at startsOther
    cases startsOther
    exact absurd rfl notName
  · obtain ⟨_, _, parsed, given⟩ := bind_eq_done.mp read
    cases given
    have room := grounded.room
    have := (grounded.solves.reaches .embeddedField (by omega) read).length_le
    have lasts := (grounded.lasting (Nat.le_refl limit)).typeHere (Blank.skip start) shorter type
      rest parsed (fieldEnd.typeEnd grounded (by omega) type)
    rw [grounded_typeHere_followedBy grounded shorter] at lasts
    rw [lasts]
    rfl

theorem Declares.of_solves {rules' : Rules} (declares : Declares rules start field)
    (solves : rules.Solves) (solves' : rules'.Solves) (short : start.rest.length < rules.bound)
    (short' : start.rest.length < rules'.bound) : Declares rules' start field := by
  have shorter := Blank.length_skip_lt short
  have shorter' := Blank.length_skip_lt short'
  have sameNamed : namedField rules (Blank.skip start) = namedField rules' (Blank.skip start) :=
    (solves.parser_eq .namedField shorter).symm.trans (solves'.parser_eq .namedField shorter')
  have sameEmbedded :
      embeddedField rules (Blank.skip start) = embeddedField rules' (Blank.skip start) :=
    (solves.parser_eq .embeddedField shorter).symm.trans (solves'.parser_eq .embeddedField shorter')
  rwa [Declares, sameNamed, sameEmbedded] at declares

theorem fieldTurn_of_brace (closed : (Blank.skip start).after? "\x7d" = some rest) :
    itemTurn "\x7d" (context "struct field" (structField rules)) start = .done .stop rest := by
  change (accept "\x7d" >>= _) (Blank.skip start) = _
  rw [accept_bind_apply, closed]
  rfl

theorem fieldTurn_of_field (absent : (Blank.skip start).after? "\x7d" = none) :
    itemTurn "\x7d" (context "struct field" (structField rules)) start =
      (context "struct field" (structField rules) >>= fun field =>
        statementEnd >>= fun _ => pure (.more field)) (Blank.skip start) := by
  change (accept "\x7d" >>= _) (Blank.skip start) = _
  rw [accept_bind_apply, absent]
  rfl

theorem fieldTurn_of_done (same : Blank.skip start = Blank.skip place)
    (absent : (Blank.skip start).after? "\x7d" = none)
    (read : structField rules place = .done field stop)
    (ended : statementEnd stop = .done () last) :
    itemTurn "\x7d" (context "struct field" (structField rules)) start =
      .done (.more field) last := by
  have read' : structField rules (Blank.skip start) = .done field stop :=
    (blanks_bind_of_skip ((Blank.skip_skip start).trans same)).trans read
  rw [fieldTurn_of_field absent, bind_apply, context_eq_done.mpr read']
  change (statementEnd >>= _) stop = _
  rw [bind_apply, ended]
  rfl

theorem cons_eq_done {α : Type} {item : α} {items : List α} {parser : Parser (List α)} :
    (parser >>= fun found => pure (item :: found)) start = .done (item :: items) rest ↔
      parser start = .done items rest := by
  rw [bind_apply]
  cases parser start with
  | done found place => simp [pure_eq_done]
  | miss fault => simp
  | halt fault => simp

theorem field_of_collect (same : Blank.skip start = Blank.skip place)
    (absent : (Blank.skip start).after? "\x7d" = none) {bound : Nat} {finish : Cursor}
    (read : collect (itemTurn "\x7d" (context "struct field" (structField rules))) bound start
      = .done (field :: fields) finish) :
    ∃ stop, structField rules place = .done field stop := by
  cases bound with
  | zero => cases read
  | succ bound =>
    obtain ⟨turn, rest, turned, read⟩ := bind_eq_done.mp read
    rw [fieldTurn_of_field absent] at turned
    obtain ⟨first, stop, found, ended⟩ := bind_eq_done.mp turned
    obtain ⟨_, _, _, given⟩ := bind_eq_done.mp ended
    cases given
    obtain ⟨_, _, _, given⟩ := bind_eq_done.mp read
    cases given
    have found := context_eq_done.mp found
    refine ⟨stop, (blanks_bind_of_skip ?_).trans found⟩
    rw [Blank.skip_skip, same]

end Bodies

theorem Rules.grounded_of_room (newLine : NewLine tail) {depth size : Nat}
    (room : size + tail.length ≤ depth) : (ofDepth depth).Grounded tail size := by
  have grounded := grounded_ofDepth newLine (depth - tail.length)
  rw [Nat.sub_add_cancel (by omega)] at grounded
  exact grounded.mono (by omega)

section Structs

variable {depth offset : Nat} {line : String} {lines : List String} {field : Field}
  {fields : List Field} {start : Cursor} {bound : Nat}

theorem newLine_cons (more : List Char) : NewLine ('\n' :: more) := by
  rintro next rest ⟨⟩
  rfl

theorem grounded_line (fits : (bodyText (line :: lines)).length + 2 ≤ depth) :
    (Rules.ofDepth depth).Grounded ('\n' :: bodyText lines) (line.toList.length + 1) := by
  apply Rules.grounded_of_room (newLine_cons _)
  rw [bodyText, List.length_append] at fits
  omega

theorem declares_line
    (declares : Declares (.forText ⟨offset, line.toList⟩) ⟨offset, line.toList⟩ field)
    (fits : (bodyText (line :: lines)).length + 2 ≤ depth) :
    Declares (.ofDepth depth) ⟨offset, line.toList⟩ field := by
  rw [bodyText, List.length_append] at fits
  refine declares.of_solves (Rules.solves_ofDepth _) (Rules.solves_ofDepth _) ?_ ?_
  · rw [Rules.forText, Rules.bound_ofDepth]
    omega
  · rw [Rules.bound_ofDepth]
    dsimp only
    omega

theorem fieldsFollow_of_lines (declared : FieldLines (offset + 1) lines fields)
    (fits : (bodyText lines).length + 2 ≤ depth) :
    FieldsFollow (.ofDepth depth) ⟨offset, '\n' :: bodyText lines⟩ := by
  cases declared with
  | nil => exact fieldsFollow_end _ offset
  | cons declares later =>
    exact fieldsFollow_line (grounded_line fits) (Nat.lt_succ_self _) (declares_line declares fits)
      rfl

theorem noBrace_of_line
    (declares : Declares (.forText ⟨offset, line.toList⟩) ⟨offset, line.toList⟩ field)
    (fits : (bodyText (line :: lines)).length + 2 ≤ depth) :
    (Blank.skip ⟨offset, bodyText (line :: lines)⟩).after? "\x7d" = none := by
  obtain ⟨form, starts⟩ := form_of_declares (grounded_line fits) (Nat.lt_succ_self _)
    (declares_line declares fits)
  have same := TypeForm.at?_followedBy (newLine_cons (bodyText lines)) (TypeForm.solid_of_at? starts)
  exact after?_of_form (same.trans starts) "\x7d" fun _ => rfl

/-- The fields of a struct are those that its lines declare, exactly if its lines are
separate. -/
theorem collect_fields_iff (declared : FieldLines offset lines fields)
    (fits : (bodyText lines).length + 2 ≤ depth) (enough : lines.length < bound)
    (place : Blank.skip start = Blank.skip ⟨offset, bodyText lines⟩) :
    collect (itemTurn "\x7d" (context "struct field" (structField (.ofDepth depth)))) bound start
      = .done fields ⟨offset + byteLength (bodyText lines), []⟩ ↔ separate offset lines = true := by
  induction declared generalizing start bound with
  | nil offset =>
    obtain ⟨bound, rfl⟩ := Nat.exists_eq_succ_of_ne_zero (Nat.ne_of_gt enough)
    have closed : (Blank.skip start).after? "\x7d" = some ⟨offset + 1, []⟩ := by
      rw [place]
      rfl
    refine iff_of_true ?_ rfl
    rw [collect, bind_apply, fieldTurn_of_brace closed]
    rfl
  | @cons offset line lines field fields declares later ih =>
    obtain ⟨bound, rfl⟩ := Nat.exists_eq_succ_of_ne_zero (Nat.ne_of_gt (Nat.zero_lt_of_lt enough))
    have grounded := grounded_line fits
    have declares' := declares_line declares fits
    have absent := noBrace_of_line declares fits
    rw [← place] at absent
    have fitsLater : (bodyText lines).length + 2 ≤ depth := by
      rw [bodyText, List.length_append, List.length_cons] at fits
      omega
    have following : FieldsFollow (.ofDepth depth)
        ⟨offset + byteLength line.toList, '\n' :: bodyText lines⟩ := by
      rw [byteLength_toList]
      exact fieldsFollow_of_lines later fitsLater
    have finish : offset + byteLength (bodyText (line :: lines)) =
        offset + line.utf8ByteSize + 1 + byteLength (bodyText lines) := by
      rw [bodyText, byteLength_append, byteLength_toList]
      change offset + (line.utf8ByteSize + (1 + byteLength (bodyText lines))) = _
      omega
    rw [separate, ← byteLength_toList]
    cases apart : holdsName ⟨offset, line.toList⟩ &&
        wordTypeAt ⟨offset + byteLength line.toList, '\n' :: bodyText lines⟩ with
    | false =>
      obtain ⟨stop, last, read, ended, after⟩ :=
        structField_of_separate grounded rfl (Nat.lt_succ_self _) declares' following apart
      rw [Bool.not_false, Bool.true_and, byteLength_toList, finish,
        ← ih fitsLater (Nat.lt_of_succ_lt_succ enough)
          (after.trans (by rw [byteLength_toList]; rfl)), collect, bind_apply,
        fieldTurn_of_done place absent read ended]
      exact cons_eq_done
    | true =>
      refine iff_of_false ?_ (by simp)
      intro read
      obtain ⟨stop, found⟩ := field_of_collect place absent read
      exact structField_of_typed_name grounded rfl (Nat.lt_succ_self _) declares' following apart
        found

theorem length_le_bodyText (lines : List String) : lines.length ≤ (bodyText lines).length := by
  induction lines with
  | nil => exact Nat.zero_le _
  | cons line lines ih =>
    rw [bodyText, List.length_append, List.length_cons, List.length_cons]
    omega

theorem structText_toList (lines : List String) :
    ("struct \x7b\n" ++ String.join (lines.map (· ++ "\n")) ++ "\x7d").toList =
      "struct \x7b\n".toList ++ bodyText lines := by
  have joined (lines : List String) :
      (String.join (lines.map (· ++ "\n"))).toList ++ ['\x7d'] = bodyText lines := by
    induction lines with
    | nil => rfl
    | cons line lines ih => simp [bodyText, ← ih]
  rw [String.toList_append, String.toList_append, List.append_assoc]
  exact congrArg _ (joined lines)

theorem structType_eq_done {body : List Char} {build : Span → TypeExpr} :
    structType rules ⟨0, "struct \x7b\n".toList ++ body⟩ = .done build rest ↔
      ∃ fields, collect (itemTurn "\x7d" (context "struct field" (structField rules))) rules.bound
          ⟨8, '\n' :: body⟩ = .done fields rest ∧ (fun span => .struct span fields) = build := by
  have word : keyword "struct" ⟨0, "struct \x7b\n".toList ++ body⟩ =
      .done () ⟨6, ' ' :: '\x7b' :: '\n' :: body⟩ := rfl
  have brace : symbol "\x7b" ⟨6, ' ' :: '\x7b' :: '\n' :: body⟩ = .done () ⟨8, '\n' :: body⟩ := rfl
  rw [structType, bind_apply, word]
  dsimp only
  rw [bind_apply, brace]
  exact map_eq_done

theorem typeExpr_struct_iff (declared : FieldLines 9 lines fields)
    (fits : (bodyText lines).length + 2 ≤ depth) :
    typeExpr (.ofDepth depth) ⟨0, "struct \x7b\n".toList ++ bodyText lines⟩
        = .done (.struct ⟨0, 9 + byteLength (bodyText lines)⟩ fields)
          ⟨9 + byteLength (bodyText lines), []⟩ ↔
      separate 9 lines = true := by
  have starts : TypeForm.at? ⟨0, "struct \x7b\n".toList ++ bodyText lines⟩ = some .struct := rfl
  have settled : Blank.skip ⟨0, "struct \x7b\n".toList ++ bodyText lines⟩ =
      ⟨0, "struct \x7b\n".toList ++ bodyText lines⟩ := Blank.skip_of_solid rfl
  have enough : lines.length < (Rules.ofDepth depth).bound := by
    have := length_le_bodyText lines
    rw [Rules.bound_ofDepth]
    omega
  rw [← collect_fields_iff declared fits enough
    (show Blank.skip ⟨8, '\n' :: bodyText lines⟩ = Blank.skip ⟨9, bodyText lines⟩ from rfl)]
  change typeHere (.ofDepth depth) (Blank.skip ⟨0, "struct \x7b\n".toList ++ bodyText lines⟩) = _ ↔ _
  rw [settled, typeHere_eq_done]
  constructor
  · rintro ⟨build, chosen, same⟩
    obtain ⟨found, collected, rfl⟩ :=
      structType_eq_done.mp ((TypeForm.choice_eq_done starts).mp chosen)
    cases same
    exact collected
  · intro collected
    exact ⟨_, (TypeForm.choice_eq_done starts).mpr
      (structType_eq_done.mpr ⟨fields, collected, rfl⟩), rfl⟩

end Structs

/-! ### Lines that can be checked -/

def declaredField? (line : Cursor) : Option Field :=
  match structField (.forText line) line with
  | .done field stop =>
    match statementEnd stop with
    | .done _ last => if (Blank.skip last).rest.isEmpty then some field else none
    | _ => none
  | _ => none

def declaredFields? : Nat → List String → Option (List Field)
  | _, [] => some []
  | offset, line :: lines => do
    let field ← declaredField? ⟨offset, line.toList⟩
    let fields ← declaredFields? (offset + line.utf8ByteSize + 1) lines
    return field :: fields

theorem declares_of_declaredField? (found : declaredField? line = some field) :
    Declares (.forText line) line field := by
  unfold declaredField? at found
  split at found
  · next declared stop read =>
    split at found
    · next last ended =>
      split at found
      · next empty =>
        cases found
        obtain ⟨names, type, rest, tag, first, tagged, same⟩ := parts_of_structField read
        exact ⟨names, type, tag, rest, stop, last,
          (orElse_eq_done.mp first).imp_right And.right,
          ⟨tagged, ended, List.isEmpty_iff.mp empty⟩, same⟩
      · cases found
    · cases found
  · cases found

theorem fieldLines_of_declaredFields? {lines : List String}
    (found : declaredFields? offset lines = some fields) : FieldLines offset lines fields := by
  induction lines generalizing offset fields with
  | nil =>
    cases found
    exact .nil offset
  | cons line lines ih =>
    obtain ⟨field, declared, found⟩ := Option.bind_eq_some_iff.mp found
    obtain ⟨others, later, same⟩ := Option.bind_eq_some_iff.mp found
    cases same
    exact .cons (declares_of_declaredField? declared) (ih later)

/-- A struct whose lines declare fields one by one, the first line at byte 9 behind the opening
brace, is read as the struct of these fields exactly if no line with a single name stands before
a line that starts with a word and with a type.  Otherwise the name takes that type for its
own. -/
theorem struct_of_lines_iff_separate (lines : List String) (fields : List Field)
    (declared : FieldLines 9 lines fields) :
    let text := "struct \x7b\n" ++ String.join (lines.map (· ++ "\n")) ++ "\x7d"
    typeExpr (.forText (.ofText text)) (.ofText text)
        = .done (.struct ⟨0, text.utf8ByteSize⟩ fields) ⟨text.utf8ByteSize, []⟩ ↔
      separate 9 lines = true := by
  intro text
  have place : Cursor.ofText text = ⟨0, "struct \x7b\n".toList ++ bodyText lines⟩ :=
    congrArg (Cursor.mk 0) (structText_toList lines)
  have size : text.utf8ByteSize = 9 + byteLength (bodyText lines) := by
    rw [← byteLength_toList, structText_toList, byteLength_append]
    rfl
  rw [place, size]
  refine typeExpr_struct_iff declared ?_
  rw [List.length_append]
  omega

/-- Comments, tags, pointers and names of other packages end lines of struct fields, and so do a
single name before a line that starts with no word and function types without result. -/
theorem mixed_lines_read :
    let lines := ["T // embedded", "*U", "pkg.V \"tag\"", "a, b func() // no result", "W"]
    let text := "struct \x7b\n" ++ String.join (lines.map (· ++ "\n")) ++ "\x7d"
    ∃ fields, FieldLines 9 lines fields ∧
      fields.map (·.names.map Ident.name) = [[], [], [], ["a", "b"], []] ∧
      typeExpr (.forText (.ofText text)) (.ofText text)
        = .done (.struct ⟨0, text.utf8ByteSize⟩ fields) ⟨text.utf8ByteSize, []⟩ := by
  intro lines text
  have names : (declaredFields? 9 lines).map (·.map (·.names.map Ident.name))
      = some [[], [], [], ["a", "b"], []] := by
    decide +kernel
  have apart : separate 9 lines = true := by
    decide +kernel
  obtain ⟨fields, found, same⟩ := Option.map_eq_some_iff.mp names
  have declared := fieldLines_of_declaredFields? found
  exact ⟨fields, declared, same, (struct_of_lines_iff_separate lines fields declared).mpr apart⟩

/-- Two lines that declare embedded fields make one named field. -/
theorem embedded_names_join :
    (declaredFields? 9 ["T", "U"]).map (·.map (·.names.map Ident.name)) = some [[], []] ∧
      (match typeExpr (.forText (.ofText "struct \x7b\nT\nU\n\x7d"))
          (.ofText "struct \x7b\nT\nU\n\x7d") with
        | .done (.struct _ fields) rest => some (fields.map (·.names.map Ident.name), rest)
        | _ => none) = some ([["T"]], ⟨14, []⟩) := by
  decide +kernel

end Unclosed.Grammar
