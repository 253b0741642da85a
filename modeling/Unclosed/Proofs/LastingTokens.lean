import Unclosed.Proofs.TrackedTokens

/-!
Results that last.  What a parser has read at a place it reads again when the text
goes on in a new line, if all that was looked at beyond the end of the result is
still there.  Blanks are the danger: a scan that crosses line ends stops at the end
of the text and goes on into the new line, unless something solid stops it before.
-/

namespace Unclosed.Grammar

variable {limit : Nat} {value : Unit} {name : Ident} {characters signs others : List Char}
  {predicate : Char → Bool}

/-! ### Lasting results -/

theorem Reply.Matches.of_done {α : Type} {tail : List Char} {value : α} {rest : Cursor}
    {reply : Reply α} (alike : (Reply.done value rest).Matches tail reply) :
    reply = .done value (rest.followedBy tail) := by
  cases alike
  rfl

theorem Reply.exists_of_isDone {α : Type} {reply : Reply α} (found : reply.isDone = true) :
    ∃ value rest, reply = .done value rest := by
  cases reply with
  | done value rest => exact ⟨value, rest, rfl⟩
  | miss fault => cases found
  | halt fault => cases found

namespace Parser

variable {α β : Type} {tail : List Char} {start : Cursor} {word : String} {rest : Cursor}
  {allowed : Unit → Cursor → Prop}

def Misses (parser : Parser α) (start : Cursor) : Prop := ∃ fault, parser start = .miss fault

theorem Misses.bind {parser : Parser α} {next : α → Parser β} (misses : parser.Misses start) :
    (parser >>= next).Misses start := by
  obtain ⟨fault, missed⟩ := misses
  refine ⟨fault, ?_⟩
  rw [bind_apply, missed]

theorem Misses.not_done {parser : Parser α} (misses : parser.Misses start) {value : α} :
    parser start ≠ .done value rest := by
  obtain ⟨fault, missed⟩ := misses
  rw [missed]
  intro impossible
  cases impossible

theorem Misses.orElse {parser second : Parser α} (misses : parser.Misses start)
    (missesSecond : second.Misses start) : (parser <|> second).Misses start := by
  obtain ⟨fault, missed⟩ := misses
  obtain ⟨other, missedSecond⟩ := missesSecond
  refine ⟨fault.furthest other, ?_⟩
  change Parser.orElse parser (fun _ => second) start = _
  rw [Parser.orElse, missed, missedSecond]

theorem Misses.recognize {parser : Parser Unit} (misses : parser.Misses start) :
    (recognize parser).Misses start := by
  obtain ⟨fault, missed⟩ := misses
  refine ⟨fault, ?_⟩
  change (parser >>= fun _ => here >>= fun stop =>
    pure (start.textTo stop, (⟨start.offset, stop.offset⟩ : Span))) start = _
  rw [bind_apply, missed]

theorem probe_of_done {parser : Parser α} {value : α} (found : parser start = .done value rest) :
    probe parser start = .done (some value) rest := by
  rw [probe, found]

theorem probe_of_not_done {parser : Parser α} (missing : (parser start).isDone = false) :
    probe parser start = .done none start := by
  rw [probe]
  cases reply : parser start with
  | done value rest =>
    rw [reply] at missing
    cases missing
  | miss fault => rfl
  | halt fault => rfl

/-- The second parser finds in the longer text what the first one finds, if it stops where it
is allowed to. -/
def Lasts (tail : List Char) (allowed : α → Cursor → Prop) (start : Cursor)
    (parser parser' : Parser α) : Prop :=
  ∀ value rest, parser start = .done value rest → allowed value rest →
    parser' (start.followedBy tail) = .done value (rest.followedBy tail)

/-- A parser finds in the longer text what it finds, if it stops where it is allowed to. -/
abbrev Endures (tail : List Char) (allowed : α → Cursor → Prop) (start : Cursor)
    (parser : Parser α) : Prop :=
  Lasts tail allowed start parser parser

abbrev anywhere : α → Cursor → Prop := fun _ _ => True

theorem matches_of_plain (newLine : NewLine tail) {least : Nat} {parser parser' : Parser α}
    (plain : Plain tail (start.rest.length + 1) least parser parser') :
    (parser start).Matches tail (parser' (start.followedBy tail)) :=
  (plain 0 start (Nat.lt_succ_self _)).alike ⟨newLine, .inr rfl⟩

theorem matches_of_solid (newLine : NewLine tail) {next next' : Unit → Parser β}
    (stops : Blank.solid (Blank.skip start).rest = true)
    (alike : (next () (Blank.skip start)).Matches tail
      (next' () ((Blank.skip start).followedBy tail))) :
    ((blanks >>= next) start).Matches tail ((blanks >>= next') (start.followedBy tail)) := by
  change (next () (Blank.skip start)).Matches tail (next' () (Blank.skip (start.followedBy tail)))
  rw [Blank.skip_followedBy_of_solid newLine stops]
  exact alike

theorem accept_bind_apply (word : String) (next : Bool → Parser β) (start : Cursor) :
    (accept word >>= next) start =
      match start.after? word with
      | some rest => next true rest
      | none => next false start := by
  rw [bind_apply, accept]
  cases start.after? word <;> rfl

namespace Lasts

variable {allowed : β → Cursor → Prop} {parser parser' : Parser α} {next next' : α → Parser β}

theorem of_matches {allowed : α → Cursor → Prop}
    (alike : (parser start).Matches tail (parser' (start.followedBy tail))) :
    Lasts tail allowed start parser parser' := by
  intro value rest parsed _
  rw [parsed] at alike
  exact alike.of_done

theorem mono {allowed allowed' : α → Cursor → Prop}
    (lasts : Lasts tail allowed start parser parser')
    (weaker : ∀ value rest, allowed' value rest → allowed value rest) :
    Lasts tail allowed' start parser parser' :=
  fun value rest parsed stops => lasts value rest parsed (weaker value rest stops)

/-- One parser after another.  Where the first one stops is known from what the second one
finds there. -/
theorem bind {between : α → Cursor → Prop} (lasts : Lasts tail between start parser parser')
    (fits : ∀ value middle result rest, parser start = .done value middle →
      next value middle = .done result rest → allowed result rest → between value middle)
    (later : ∀ value middle, parser start = .done value middle →
      Lasts tail allowed middle (next value) (next' value)) :
    Lasts tail allowed start (parser >>= next) (parser' >>= next') := by
  intro result rest parsed stops
  obtain ⟨value, middle, first, second⟩ := bind_eq_done.mp parsed
  rw [bind_apply, lasts value middle first (fits value middle result rest first second stops)]
  exact later value middle first result rest second stops

theorem andThen (lasts : Lasts tail anywhere start parser parser')
    (later : ∀ value middle, parser start = .done value middle →
      Lasts tail allowed middle (next value) (next' value)) :
    Lasts tail allowed start (parser >>= next) (parser' >>= next') :=
  bind lasts (fun _ _ _ _ _ _ _ => trivial) later

/-- A result may be taken for granted to show that it lasts. -/
theorem of_run {allowed : α → Cursor → Prop}
    (lasts : ∀ value rest, parser start = .done value rest →
      Lasts tail allowed start parser parser') : Lasts tail allowed start parser parser' :=
  fun value rest parsed => lasts value rest parsed value rest parsed

theorem known {value : α} {middle : Cursor} (reads : parser start = .done value middle)
    (reads' : parser' (start.followedBy tail) = .done value (middle.followedBy tail))
    (later : Lasts tail allowed middle (next value) (next' value)) :
    Lasts tail allowed start (parser >>= next) (parser' >>= next') := by
  intro result rest parsed ends
  rw [bind_apply, reads] at parsed
  rw [bind_apply, reads']
  exact later result rest parsed ends

theorem here {next next' : Cursor → Parser β}
    (later : Lasts tail allowed start (next start) (next' (start.followedBy tail))) :
    Lasts tail allowed start (Parser.here >>= next) (Parser.here >>= next') :=
  later

theorem resume {place : Cursor} {next next' : Unit → Parser β}
    (later : Lasts tail allowed place (next ()) (next' ())) :
    Lasts tail allowed start (Parser.resume place >>= next)
      (Parser.resume (place.followedBy tail) >>= next') :=
  later

theorem span {place : Cursor} {next next' : Span → Parser β}
    (later : ∀ span, Lasts tail allowed start (next span) (next' span)) :
    Lasts tail allowed start (spanFrom place >>= next)
      (spanFrom (place.followedBy tail) >>= next') :=
  later ⟨place.offset, start.offset⟩

theorem pure {value : β} : Endures tail allowed start (Pure.pure value) := by
  intro result rest parsed _
  obtain ⟨rfl, rfl⟩ := pure_eq_done.mp parsed
  rfl

theorem fail : Lasts tail allowed start (Parser.fail : Parser β) Parser.fail := by
  intro result rest parsed _
  cases parsed

theorem skip {step : Cursor → Cursor} {next next' : Unit → Parser β}
    (same : ∀ result rest, next () (step start) = .done result rest →
      step (start.followedBy tail) = (step start).followedBy tail)
    (later : Lasts tail allowed (step start) (next ()) (next' ())) :
    Lasts tail allowed start (Parser.skip step >>= next) (Parser.skip step >>= next') := by
  intro result rest parsed ends
  change next' () (step (start.followedBy tail)) = _
  rw [same result rest parsed]
  exact later result rest parsed ends

section

variable (newLine : NewLine tail)
include newLine

theorem blanks {next next' : Unit → Parser β}
    (stops : ∀ result rest, next () (Blank.skip start) = .done result rest →
      Blank.solid (Blank.skip start).rest = true)
    (later : Lasts tail allowed (Blank.skip start) (next ()) (next' ())) :
    Lasts tail allowed start (Parser.blanks >>= next) (Parser.blanks >>= next') :=
  skip (fun result rest parsed =>
    Blank.skip_followedBy_of_solid newLine (stops result rest parsed)) later

theorem lineBlanks {next next' : Unit → Parser β}
    (later : Lasts tail allowed (Blank.skipInLine start) (next ()) (next' ())) :
    Lasts tail allowed start (Parser.lineBlanks >>= next) (Parser.lineBlanks >>= next') :=
  skip (fun _ _ _ => Blank.skipInLine_followedBy newLine start) later

/-- What is read up to a closing bracket does not depend on the text behind. -/
theorem closed {least : β → Nat} {parser parser' : Parser β}
    (run : TracksFrom tail start (closes 1) start parser parser' least fun _ => closes 0) :
    Lasts tail allowed start parser parser' := by
  intro value rest parsed _
  have settled := run.settled
  rw [parsed] at settled
  have alike := run.alike ⟨newLine, .inr settled.same.symm⟩
  rw [parsed] at alike
  exact alike.of_done

theorem closing {least : α → Nat}
    (tracks : Tracks tail limit (closes 1) parser parser' least fun _ => closes 0)
    (short : start.rest.length < limit)
    (later : ∀ value middle, middle.rest.length + least value ≤ start.rest.length →
      Lasts tail allowed middle (next value) (next' value)) :
    Lasts tail allowed start (parser >>= next) (parser' >>= next') := by
  have run := tracks start short
  apply andThen (closed newLine run)
  intro value middle parsed
  have settled := run.settled
  rw [parsed] at settled
  exact later value middle settled.reaches.length_le

/-- A part between brackets and the bracket that closes it. -/
theorem bracket {least : α → Nat} {close close' : Parser Unit}
    (inside : Tracks tail limit (closes 1) parser parser' least fun _ => closes 1)
    (closed : Tracks tail limit (closes 1) close close' (fun _ => 1) fun _ => closes 0)
    (short : start.rest.length < limit)
    (later : ∀ value middle, middle.rest.length < start.rest.length →
      Lasts tail allowed middle (next value) (next' value)) :
    Lasts tail allowed start (parser >>= fun value => close >>= fun _ => next value)
      (parser' >>= fun value => close' >>= fun _ => next' value) := by
  have piece : Tracks tail limit (closes 1)
      (parser >>= fun value => close >>= fun _ => Pure.pure value)
      (parser' >>= fun value => close' >>= fun _ => Pure.pure value) (fun _ => 1)
      fun _ => closes 0 := by
    intro first short
    apply TracksFrom.bind inside (.refl first _) (by omega)
    intro value rest led
    apply TracksFrom.bind closed led (by omega)
    intro _ rest led
    exact .pure led (by omega) rfl
  have split (next : α → Parser β) (parser : Parser α) (close : Parser Unit) :
      (parser >>= fun value => close >>= fun _ => next value)
        = (parser >>= fun value => close >>= fun _ => Pure.pure value) >>= next := by
    rw [bind_bind]
    congr 1
    funext value
    rw [bind_bind]
    rfl
  rw [split, split next']
  exact closing newLine piece short later

theorem accept {word : String} {next next' : Bool → Parser β} (inLine : '\n' ∉ word.toList)
    (present : ∀ rest, start.after? word = some rest →
      Lasts tail allowed rest (next true) (next' true))
    (absent : start.after? word = none → Lasts tail allowed start (next false) (next' false)) :
    Lasts tail allowed start (Parser.accept word >>= next) (Parser.accept word >>= next') := by
  intro result rest parsed ends
  rw [accept_bind_apply] at parsed ⊢
  rw [Cursor.after?_followedBy newLine inLine]
  cases found : start.after? word with
  | none =>
    rw [found] at parsed
    exact absent found result rest parsed ends
  | some place =>
    rw [found] at parsed
    exact present place found result rest parsed ends

theorem nextIs {word : String} {next next' : Bool → Parser β} (inLine : '\n' ∉ word.toList)
    (later : ∀ answer, start.startsWith word = answer →
      Lasts tail allowed start (next answer) (next' answer)) :
    Lasts tail allowed start (Parser.nextIs word >>= next) (Parser.nextIs word >>= next') := by
  intro result rest parsed ends
  change next' ((start.followedBy tail).startsWith word) (start.followedBy tail) = _
  rw [Cursor.startsWith_followedBy newLine inLine]
  exact later _ rfl result rest parsed ends

end

theorem sees {next next' : Bool → Parser β}
    (alike : ∀ result rest, next (parser start).isDone start = .done result rest →
      (parser' (start.followedBy tail)).isDone = (parser start).isDone)
    (later : ∀ answer, (parser start).isDone = answer →
      Lasts tail allowed start (next answer) (next' answer)) :
    Lasts tail allowed start (Parser.sees parser >>= next) (Parser.sees parser' >>= next') := by
  intro result rest parsed ends
  change next' (parser' (start.followedBy tail)).isDone (start.followedBy tail) = _
  rw [alike result rest parsed]
  exact later _ rfl result rest parsed ends

/-- A part that may be absent, in both texts alike. -/
theorem probe {next next' : Option α → Parser β} {between : α → Cursor → Prop}
    (lasts : Lasts tail between start parser parser')
    (fits : ∀ value middle result rest, parser start = .done value middle →
      next (some value) middle = .done result rest → allowed result rest → between value middle)
    (alike : ∀ result rest, (parser start).isDone = false →
      next none start = .done result rest → allowed result rest →
        (parser' (start.followedBy tail)).isDone = false)
    (present : ∀ value middle, parser start = .done value middle →
      Lasts tail allowed middle (next (some value)) (next' (some value)))
    (absent : (parser start).isDone = false → Lasts tail allowed start (next none) (next' none)) :
    Lasts tail allowed start (Parser.probe parser >>= next) (Parser.probe parser' >>= next') := by
  intro result rest parsed ends
  rw [bind_apply] at parsed ⊢
  cases answer : (parser start).isDone with
  | false =>
    rw [probe_of_not_done answer] at parsed
    rw [probe_of_not_done (alike result rest answer parsed ends)]
    exact absent answer result rest parsed ends
  | true =>
    obtain ⟨value, middle, found⟩ := Reply.exists_of_isDone answer
    rw [probe_of_done found] at parsed
    have ends' := fits value middle result rest found parsed ends
    rw [probe_of_done (lasts value middle found ends')]
    exact present value middle found result rest parsed ends

theorem accepts {parser parser' : Parser Unit} {next next' : Bool → Parser β}
    (lasts : Lasts tail anywhere start parser parser')
    (alike : ∀ result rest, (parser start).isDone = false →
      next false start = .done result rest → allowed result rest →
        (parser' (start.followedBy tail)).isDone = false)
    (present : ∀ middle, parser start = .done () middle →
      Lasts tail allowed middle (next true) (next' true))
    (absent : (parser start).isDone = false → Lasts tail allowed start (next false) (next' false)) :
    Lasts tail allowed start (Parser.accepts parser >>= next)
      (Parser.accepts parser' >>= next') := by
  rw [accepts_bind, accepts_bind]
  exact probe lasts (fun _ _ _ _ _ _ _ => trivial) alike (fun _ => present) absent

/-- Two alternatives: where the second one is taken, the first one misses in both texts. -/
theorem orElse {allowed : α → Cursor → Prop} {second second' : Parser α}
    (lasts : Lasts tail allowed start parser parser')
    (lastsSecond : Lasts tail allowed start second second')
    (misses : ∀ value rest, second start = .done value rest →
      parser'.Misses (start.followedBy tail)) :
    Lasts tail allowed start (parser <|> second) (parser' <|> second') := by
  intro value rest parsed ends
  rcases orElse_eq_done.mp parsed with found | ⟨_, found⟩
  · exact orElse_eq_done.mpr (.inl (lasts value rest found ends))
  · exact orElse_eq_done.mpr (.inr ⟨misses value rest found, lastsSecond value rest found ends⟩)

theorem context {allowed : α → Cursor → Prop} (label : String)
    (lasts : Lasts tail allowed start parser parser') :
    Lasts tail allowed start (Parser.context label parser) (Parser.context label parser') := by
  intro value rest parsed ends
  exact context_eq_done.mpr (lasts value rest (context_eq_done.mp parsed) ends)

theorem map {f : α → β} (lasts : Lasts tail (fun value => allowed (f value)) start parser parser') :
    Lasts tail allowed start (f <$> parser) (f <$> parser') := by
  change Lasts tail allowed start (parser >>= fun value => Pure.pure (f value))
    (parser' >>= fun value => Pure.pure (f value))
  apply bind lasts
  · intro value middle result rest _ second ends
    obtain ⟨rfl, rfl⟩ := pure_eq_done.mp second
    exact ends
  · intro value middle _
    exact pure

end Lasts

/-! ### Words and names -/

theorem tag_eq_done : tag word start = .done value rest ↔ start.after? word = some rest := by
  unfold tag move
  cases start.after? word <;> simp

theorem tag_misses (absent : start.after? word = none) : (tag word).Misses start := by
  refine ⟨.silent start, ?_⟩
  rw [tag, move, absent]

theorem tag_matches (newLine : NewLine tail) (inLine : '\n' ∉ word.toList) :
    (tag word start).Matches tail (tag word (start.followedBy tail)) := by
  unfold tag move
  rw [Cursor.after?_followedBy newLine inLine]
  cases start.after? word with
  | some rest => exact .done () rest
  | none =>
    apply Reply.Matches.miss
    rintro rfl
    rw [Cursor.followedBy_nil]

def Visible (word : String) : Prop :=
  (word.toList.head?.any fun next => next != '/' && !Blank.isSpace next) = true

instance (word : String) : Decidable (Visible word) := inferInstanceAs (Decidable (_ = true))

theorem Visible.ne_nil (visible : Visible word) : word.toList ≠ [] := by
  intro empty
  rw [Visible, empty] at visible
  cases visible

theorem solid_of_after? (found : start.after? word = some rest) (visible : Visible word) :
    Blank.solid start.rest = true := by
  rw [Cursor.text_of_after? found]
  unfold Visible at visible
  cases letters : word.toList with
  | nil =>
    rw [letters] at visible
    cases visible
  | cons next others =>
    rw [letters] at visible
    exact Blank.solid_cons _ visible

theorem symbol_eq_done :
    symbol word start = .done value rest ↔ (Blank.skip start).after? word = some rest :=
  tag_eq_done

theorem symbol_matches (newLine : NewLine tail) (stops : Blank.solid (Blank.skip start).rest = true)
    (inLine : '\n' ∉ word.toList) :
    (symbol word start).Matches tail (symbol word (start.followedBy tail)) :=
  matches_of_solid newLine stops (tag_matches newLine inLine)

theorem symbol_lasts (newLine : NewLine tail) (visible : Visible word)
    (inLine : '\n' ∉ word.toList) :
    Endures tail allowed start (symbol word) := by
  intro value rest parsed ends
  have stops := solid_of_after? (symbol_eq_done.mp parsed) visible
  exact Lasts.of_matches (symbol_matches newLine stops inLine) value rest parsed ends

theorem reaches_of_symbol (parsed : symbol word start = .done value rest) :
    start.Reaches word.toList.length rest := by
  have reaches := (Blank.reaches_skip start).trans
    (Cursor.reaches_of_after? (symbol_eq_done.mp parsed))
  exact reaches.mono (by omega)

theorem keyword_matches (newLine : NewLine tail)
    (stops : Blank.solid (Blank.skip start).rest = true)
    (unmarked : word.toList ≠ [] ∧ ∀ character ∈ word.toList, character ∉ marks) :
    (keyword word start).Matches tail (keyword word (start.followedBy tail)) :=
  matches_of_solid newLine stops (matches_of_plain newLine (wholeWord_plain unmarked))

theorem after?_of_keyword (parsed : keyword word start = .done value rest) :
    (Blank.skip start).after? word = some rest := by
  obtain ⟨_, middle, spelled, ends⟩ := bind_eq_done.mp (show
    (tag word >>= fun _ => sees (satisfy isIdentChar) >>= fun followed =>
      if followed = true then fail else pure ()) (Blank.skip start) = .done value rest from parsed)
  obtain ⟨followed, place, ⟨⟩, ends⟩ := bind_eq_done.mp ends
  split at ends
  · cases ends
  · cases ends
    exact tag_eq_done.mp spelled

theorem solid_of_keyword (parsed : keyword word start = .done value rest) (visible : Visible word) :
    Blank.solid (Blank.skip start).rest = true :=
  solid_of_after? (after?_of_keyword parsed) visible

theorem keyword_lasts (newLine : NewLine tail) (visible : Visible word)
    (unmarked : word.toList ≠ [] ∧ ∀ character ∈ word.toList, character ∉ marks) :
    Endures tail allowed start (keyword word) := by
  intro value rest parsed ends
  have stops := solid_of_keyword parsed visible
  exact Lasts.of_matches (keyword_matches newLine stops unmarked) value rest parsed ends

theorem identifier_matches (newLine : NewLine tail)
    (stops : Blank.solid (Blank.skip start).rest = true) :
    (identifier start).Matches tail (identifier (start.followedBy tail)) :=
  matches_of_solid newLine stops (matches_of_plain newLine freeName_plain)

theorem identChar_of_identStart {next : Char} (letter : isIdentStart next = true) :
    isIdentChar next = true := by
  simp only [isIdentStart, isIdentChar, Bool.or_eq_true] at letter ⊢
  rcases letter with letter | score
  · exact .inl (.inl letter)
  · exact .inr score

theorem solid_of_identChar {next : Char} (letter : isIdentChar next = true) (rest : List Char) :
    Blank.solid (next :: rest) = true := by
  have slash : next ≠ '/' := by
    rintro rfl
    cases letter
  have visible : Blank.isSpace next = false := by
    rw [Bool.eq_false_iff]
    intro space
    simp only [Blank.isSpace, Bool.or_eq_true, beq_iff_eq] at space
    rcases space with ((rfl | rfl) | rfl) | rfl <;> cases letter
  exact Blank.solid_cons rest (by simp [slash, visible])

def isName (letters : List Char) : Bool :=
  letters.head?.any isIdentStart && !isKeyword (String.ofList letters)

theorem skipWhileFrom_eq (predicate : Char → Bool) (offset : Nat) (characters : List Char) :
    Cursor.skipWhileFrom predicate offset characters =
      ⟨offset + byteLength (characters.takeWhile predicate), characters.dropWhile predicate⟩ := by
  fun_induction Cursor.skipWhileFrom predicate offset characters with
  | case1 offset => rfl
  | case2 offset next rest holds ih =>
    rw [ih, List.takeWhile_cons_of_pos holds, List.dropWhile_cons_of_pos holds,
      byteLength, Nat.add_assoc]
  | case3 offset next rest fails =>
    rw [List.takeWhile_cons_of_neg fails, List.dropWhile_cons_of_neg fails]
    rfl

theorem textTo_skipWhile (predicate : Char → Bool) (start : Cursor) :
    start.textTo (start.skipWhile predicate) = String.ofList (start.rest.takeWhile predicate) := by
  rw [Cursor.skipWhile, skipWhileFrom_eq]
  exact Cursor.Reaches.textTo_eq List.takeWhile_append_dropWhile.symm rfl

theorem identifier_apply (start : Cursor) :
    identifier start = (recognize (do satisfy isIdentStart; takeWhile isIdentChar) >>= fun found =>
      if isKeyword found.1 then resume (Blank.skip start) >>= fun _ => fail
      else pure ⟨found.1, found.2⟩) (Blank.skip start) :=
  rfl

theorem name_apply (offset : Nat) {next : Char} (more : List Char)
    (letter : isIdentStart next = true) :
    recognize (do satisfy isIdentStart; takeWhile isIdentChar) ⟨offset, next :: more⟩ =
      .done (String.ofList ((next :: more).takeWhile isIdentChar),
          ⟨offset, ((⟨offset, next :: more⟩ : Cursor).skipWhile isIdentChar).offset⟩)
        ((⟨offset, next :: more⟩ : Cursor).skipWhile isIdentChar) := by
  have stop : (⟨offset, next :: more⟩ : Cursor).skipWhile isIdentChar
      = (⟨offset + next.utf8Size, more⟩ : Cursor).skipWhile isIdentChar := by
    rw [Cursor.skipWhile, Cursor.skipWhileFrom, if_pos (identChar_of_identStart letter)]
    rfl
  rw [← textTo_skipWhile isIdentChar ⟨offset, next :: more⟩, stop]
  simp [bind_apply, recognize, here, satisfy, move, takeWhile, skip, Cursor.afterChar?, letter]

theorem identifier_misses
    (unnamed : isName ((Blank.skip start).rest.takeWhile isIdentChar) = false) :
    identifier.Misses start := by
  rw [Misses, identifier_apply]
  revert unnamed
  generalize Blank.skip start = place
  obtain ⟨offset, characters⟩ := place
  intro unnamed
  cases characters with
  | nil => exact ⟨_, rfl⟩
  | cons next more =>
    cases letter : isIdentStart next with
    | false =>
      refine ⟨.silent ⟨offset, next :: more⟩, ?_⟩
      simp [bind_apply, recognize, here, satisfy, move, Cursor.afterChar?, letter]
    | true =>
      have reserved : isKeyword (String.ofList ((next :: more).takeWhile isIdentChar)) = true := by
        rw [isName, List.takeWhile_cons_of_pos (identChar_of_identStart letter)] at unnamed
        rw [List.takeWhile_cons_of_pos (identChar_of_identStart letter)]
        simpa [letter] using unnamed
      refine ⟨.silent ⟨offset, next :: more⟩, ?_⟩
      rw [bind_apply, name_apply offset more letter]
      dsimp only
      rw [if_pos reserved]
      rfl

theorem name_of_identifier (parsed : identifier start = .done name rest) :
    isName ((Blank.skip start).rest.takeWhile isIdentChar) = true := by
  cases named : isName ((Blank.skip start).rest.takeWhile isIdentChar) with
  | true => rfl
  | false => exact absurd parsed (identifier_misses named).not_done

theorem identStart_of_isName (named : isName (characters.takeWhile isIdentChar) = true) :
    ∃ next more, characters = next :: more ∧ isIdentStart next = true := by
  cases characters with
  | nil => cases named
  | cons next more =>
    refine ⟨next, more, rfl, ?_⟩
    rw [isName, Bool.and_eq_true] at named
    by_cases letter : isIdentChar next = true
    · rw [List.takeWhile_cons_of_pos letter] at named
      exact named.1
    · rw [List.takeWhile_cons_of_neg letter] at named
      cases named.1

theorem solid_of_identifier (parsed : identifier start = .done name rest) :
    Blank.solid (Blank.skip start).rest = true := by
  obtain ⟨next, more, text, letter⟩ := identStart_of_isName (name_of_identifier parsed)
  rw [text]
  exact solid_of_identChar (identChar_of_identStart letter) more

theorem identifier_lasts (newLine : NewLine tail) {allowed : Ident → Cursor → Prop} :
    Endures tail allowed start identifier := by
  intro value rest parsed ends
  have stops := solid_of_identifier parsed
  exact Lasts.of_matches (identifier_matches newLine stops) value rest parsed ends

namespace Lasts

variable {allowed : β → Cursor → Prop} {next next' : Unit → Parser β} {word : String}

theorem tag (newLine : NewLine tail) (some : word.toList ≠ []) (inLine : '\n' ∉ word.toList)
    (later : ∀ middle, middle.rest.length < start.rest.length →
      Lasts tail allowed middle (next ()) (next' ())) :
    Lasts tail allowed start (Parser.tag word >>= next) (Parser.tag word >>= next') := by
  apply andThen (of_matches (tag_matches newLine inLine))
  intro _ middle spelled
  apply later
  have := (Cursor.reaches_of_after? (tag_eq_done.mp spelled)).length_le
  have := List.length_pos_iff.mpr some
  omega

theorem symbol (newLine : NewLine tail) (visible : Visible word) (inLine : '\n' ∉ word.toList)
    (later : ∀ middle, middle.rest.length < start.rest.length →
      Lasts tail allowed middle (next ()) (next' ())) :
    Lasts tail allowed start (Parser.symbol word >>= next) (Parser.symbol word >>= next') := by
  apply andThen (symbol_lasts newLine visible inLine)
  intro _ middle spelled
  apply later
  have := (reaches_of_symbol spelled).length_le
  have := List.length_pos_iff.mpr visible.ne_nil
  omega

theorem keyword (newLine : NewLine tail) (visible : Visible word)
    (unmarked : word.toList ≠ [] ∧ ∀ character ∈ word.toList, character ∉ marks)
    (later : ∀ middle, middle.rest.length < start.rest.length →
      Lasts tail allowed middle (next ()) (next' ())) :
    Lasts tail allowed start (Parser.keyword word >>= next) (Parser.keyword word >>= next') := by
  apply andThen (keyword_lasts newLine visible unmarked)
  intro _ middle spelled
  exact later middle (reaches_of_balanced (keyword_balanced unmarked) spelled).length_le

end Lasts

/-! ### Literals -/

theorem rest_ne_nil_of_after? (found : start.after? word = some rest) (some : word.toList ≠ []) :
    start.rest ≠ [] := by
  rw [Cursor.text_of_after? found]
  intro empty
  exact some (List.append_eq_nil_iff.mp empty).1

theorem after?_eq_none
    (differs : (word.toList.head?.any fun first => start.rest.head? != some first) = true) :
    start.after? word = none := by
  cases found : start.after? word with
  | none => rfl
  | some rest =>
    rw [Cursor.text_of_after? found] at differs
    cases letters : word.toList with
    | nil =>
      rw [letters] at differs
      cases differs
    | cons first others =>
      rw [letters] at differs
      simp at differs

theorem skipQuotedBody_lasts (quote : (skipQuotedBody start).after? "\"" = some rest) :
    skipQuotedBody (start.followedBy tail) = (skipQuotedBody start).followedBy tail := by
  cases found : quotedBodyFrom start.offset start.rest with
  | some stop =>
    have body : skipQuotedBody start = stop := by rw [skipQuotedBody, found, Option.getD_some]
    rw [body] at quote ⊢
    rw [skipQuotedBody, Cursor.followedBy,
      quotedBodyFrom_lasts found (rest_ne_nil_of_after? quote (by decide)), Option.getD_some]
  | none =>
    -- A body that is left unread does not start with a quote.
    have body : skipQuotedBody start = start := by rw [skipQuotedBody, found, Option.getD_none]
    rw [body] at quote
    rw [Cursor.text_of_after? quote] at found
    cases found

theorem satisfy_eq_done :
    satisfy predicate start = .done value rest ↔ start.afterChar? predicate = some rest := by
  unfold satisfy move
  cases start.afterChar? predicate <;> simp

theorem satisfy_lasts : Endures tail allowed start (satisfy predicate) := by
  intro value rest parsed _
  have found := satisfy_eq_done.mp parsed
  rw [satisfy_eq_done, Cursor.afterChar?_followedBy, found]
  · rfl
  · intro empty
    obtain ⟨offset, characters⟩ := start
    cases empty
    cases found

namespace Lasts

theorem recognize {parser parser' : Parser Unit} {allowed : String × Span → Cursor → Prop}
    (lasts : Lasts tail anywhere start parser parser')
    (moves : ∀ rest, parser start = .done () rest → start.Reaches 0 rest) :
    Lasts tail allowed start (Parser.recognize parser) (Parser.recognize parser') := by
  apply here
  apply andThen lasts
  rintro ⟨⟩ middle parsed
  apply here
  rw [(moves middle parsed).textTo_followedBy]
  exact pure

end Lasts

theorem quotedText_lasts (newLine : NewLine tail) :
    Endures tail allowed start (do tag "\""; skip skipQuotedBody; tag "\"") := by
  apply Lasts.andThen (.of_matches (tag_matches newLine (by decide)))
  intro _ middle _
  apply Lasts.skip
  · intro result rest parsed
    exact skipQuotedBody_lasts (tag_eq_done.mp parsed)
  · exact .of_matches (tag_matches newLine (by decide))

theorem rawText_lasts (newLine : NewLine tail) :
    Endures tail allowed start (do tag "`"; takeWhile (· ≠ '`'); tag "`") := by
  apply Lasts.andThen (.of_matches (tag_matches newLine (by decide)))
  intro _ middle _
  apply Lasts.skip
  · intro result rest parsed
    exact skipWhileFrom_lasts (rest_ne_nil_of_after? (tag_eq_done.mp parsed) (by decide))
  · exact .of_matches (tag_matches newLine (by decide))

def startsAmong (signs characters : List Char) : Bool := characters.head?.any signs.contains

theorem head_of_startsAmong (among : startsAmong signs characters = true) :
    ∃ next more, characters = next :: more ∧ next ∈ signs := by
  cases characters with
  | nil => cases among
  | cons next more => exact ⟨next, more, rfl, by simpa [startsAmong] using among⟩

theorem solid_of_startsAmong (among : startsAmong signs characters = true)
    (visible : ∀ sign ∈ signs, (sign != '/' && !Blank.isSpace sign) = true) :
    Blank.solid characters = true := by
  obtain ⟨next, more, rfl, member⟩ := head_of_startsAmong among
  exact Blank.solid_cons more (visible next member)

theorem startsAmong_followedBy (newLine : NewLine tail) (characters : List Char)
    (inLine : signs.contains '\n' = false) :
    startsAmong signs (characters ++ tail) = startsAmong signs characters := by
  cases characters with
  | cons next more => rfl
  | nil =>
    cases tail with
    | nil => rfl
    | cons next more =>
      cases newLine next more rfl
      exact inLine

/-- A word that starts with a sign which the place does not start with. -/
theorem tag_misses_of_signs (absent : startsAmong signs start.rest = false)
    (sign : (word.toList.head?.any signs.contains) = true) :
    (tag word).Misses start := by
  apply tag_misses
  apply after?_eq_none
  cases letters : word.toList with
  | nil =>
    rw [letters] at sign
    cases sign
  | cons first others =>
    rw [letters] at sign
    cases text : start.rest with
    | nil => rfl
    | cons next more =>
      rw [text] at absent
      simp only [startsAmong, List.head?_cons, Option.any_some] at absent sign ⊢
      simp only [bne_iff_ne, ne_eq, Option.some.injEq]
      rintro rfl
      rw [absent] at sign
      cases sign

theorem startsAmong_of_after? (found : start.after? word = some rest)
    (sign : (word.toList.head?.any signs.contains) = true) :
    startsAmong signs start.rest = true := by
  cases absent : startsAmong signs start.rest with
  | true => rfl
  | false =>
    have spelled : tag word start = .done () rest := tag_eq_done.mpr found
    exact absurd spelled (tag_misses_of_signs absent sign).not_done

theorem startsAmong_disjoint (among : startsAmong signs characters = true)
    (disjoint : ∀ sign ∈ signs, others.contains sign = false) :
    startsAmong others characters = false := by
  obtain ⟨next, more, rfl, member⟩ := head_of_startsAmong among
  exact disjoint next member

theorem stringText_misses (unquoted : startsAmong ['"', '`'] start.rest = false) :
    Misses ((do tag "\""; skip skipQuotedBody; tag "\"")
      <|> (do tag "`"; takeWhile (· ≠ '`'); tag "`")) start :=
  (tag_misses_of_signs unquoted (by decide)).bind.orElse
    (tag_misses_of_signs unquoted (by decide)).bind

theorem stringLiteral_misses (unquoted : startsAmong ['"', '`'] (Blank.skip start).rest = false) :
    stringLiteral.Misses start := by
  have misses := (stringText_misses unquoted).recognize
  exact misses.bind

theorem stringLiteral_lasts (newLine : NewLine tail) {allowed : Expr → Cursor → Prop} :
    Endures tail allowed start stringLiteral := by
  apply Lasts.blanks newLine
  · intro result rest parsed
    cases quoted : startsAmong ['"', '`'] (Blank.skip start).rest with
    | false => exact absurd parsed (stringText_misses quoted).recognize.bind.not_done
    | true => exact solid_of_startsAmong quoted (by decide)
  · have text : Endures tail anywhere (Blank.skip start)
        ((do tag "\""; skip skipQuotedBody; tag "\"")
          <|> (do tag "`"; takeWhile (· ≠ '`'); tag "`")) := by
      apply Lasts.orElse (quotedText_lasts newLine) (rawText_lasts newLine)
      intro value rest parsed
      obtain ⟨_, middle, opened, _⟩ := bind_eq_done.mp parsed
      have raw : startsAmong ['`'] (Blank.skip start).rest = true :=
        startsAmong_of_after? (tag_eq_done.mp opened) (by decide)
      rw [← startsAmong_followedBy newLine _ (by decide)] at raw
      have unquoted : startsAmong ['"'] ((Blank.skip start).rest ++ tail) = false :=
        startsAmong_disjoint raw (by decide)
      exact (tag_misses_of_signs unquoted (by decide)).bind
    apply Lasts.andThen
    · apply Lasts.recognize text
      intro rest parsed
      exact (reaches_of_balanced stringText_balanced parsed).mono (Nat.zero_le _)
    · intro found middle _
      exact .pure

theorem escapedRune_lasts (newLine : NewLine tail) :
    Endures tail (fun _ rest => rest.rest ≠ []) start (do tag "\\"; takeWhile1 (· ≠ '\'')) := by
  apply Lasts.andThen (.of_matches (tag_matches newLine (by decide)))
  intro _ middle _
  apply Lasts.andThen satisfy_lasts
  intro _ middle _ value rest parsed ends
  cases parsed
  change Reply.done () _ = _
  rw [Cursor.skipWhile, Cursor.followedBy, skipWhileFrom_lasts ends]
  rfl

theorem runeText_lasts (newLine : NewLine tail) :
    Endures tail allowed start
      (do
        tag "'"
        (do tag "\\"; takeWhile1 (· ≠ '\''))
          <|> satisfy (fun next => next ≠ '\'' && next ≠ '\\' && next ≠ '\n')
        tag "'") := by
  apply Lasts.andThen (.of_matches (tag_matches newLine (by decide)))
  intro _ middle _
  apply Lasts.bind (Lasts.orElse (escapedRune_lasts newLine) satisfy_lasts ?_)
  · intro _ place _ rest _ closed _
    exact rest_ne_nil_of_after? (tag_eq_done.mp closed) (by decide)
  · intro _ place _
    exact .of_matches (tag_matches newLine (by decide))
  · intro _ rest parsed
    -- A rune that is no escape does not start with a backslash.
    have found := satisfy_eq_done.mp parsed
    apply Misses.bind
    apply tag_misses
    apply after?_eq_none
    obtain ⟨offset, characters⟩ := middle
    cases characters with
    | nil => cases found
    | cons next more =>
      have other : next ≠ '\\' := by
        rintro rfl
        cases found
      simpa [Cursor.followedBy] using other

theorem runeLiteral_misses (unquoted : startsAmong ['\''] start.rest = false) :
    runeLiteral.Misses start := by
  have opening : (tag "'").Misses start := tag_misses_of_signs unquoted (by decide)
  exact opening.bind.recognize.bind

theorem runeLiteral_lasts (newLine : NewLine tail) {allowed : Expr → Cursor → Prop} :
    Endures tail allowed start runeLiteral := by
  apply Lasts.andThen
  · apply Lasts.recognize (runeText_lasts newLine)
    intro rest parsed
    exact (reaches_of_balanced runeText_balanced parsed).mono (Nat.zero_le _)
  · intro found middle _
    exact .pure

def numberSigns : List Char := ['0', '1', '2', '3', '4', '5', '6', '7', '8', '9', '.']

theorem mem_numberSigns_of_isDecimalDigit {next : Char} (digit : isDecimalDigit next = true) :
    next ∈ numberSigns := by
  simp only [isDecimalDigit, Bool.and_eq_true, decide_eq_true_eq] at digit
  have low : 48 ≤ next.toNat := digit.1
  have high : next.toNat ≤ 57 := digit.2
  rw [← Char.ofNat_toNat next]
  revert low high
  generalize next.toNat = code
  intro low high
  have codes : code = 48 ∨ code = 49 ∨ code = 50 ∨ code = 51 ∨ code = 52 ∨ code = 53 ∨ code = 54
      ∨ code = 55 ∨ code = 56 ∨ code = 57 := by
    omega
  rcases codes with rfl | rfl | rfl | rfl | rfl | rfl | rfl | rfl | rfl | rfl <;> decide

theorem numberLiteral_misses (other : startsAmong numberSigns start.rest = false) :
    numberLiteral.Misses start := by
  have zero : (tag "0").Misses start := tag_misses_of_signs other (by decide)
  have point : (tag ".").Misses start := tag_misses_of_signs other (by decide)
  have digit : (satisfy isDecimalDigit).Misses start := by
    obtain ⟨offset, characters⟩ := start
    cases characters with
    | nil => exact ⟨_, rfl⟩
    | cons next more =>
      have noDigit : ¬ isDecimalDigit next = true := by
        intro digit
        have member := mem_numberSigns_of_isDecimalDigit digit
        simp only [startsAmong, List.head?_cons, Option.any_some] at other
        rw [List.contains_iff_mem.mpr member] at other
        cases other
      refine ⟨.silent ⟨offset, next :: more⟩, ?_⟩
      rw [satisfy, move, Cursor.afterChar?, if_neg noDigit]
  exact (zero.bind.orElse (digit.bind.orElse point.bind).bind).recognize.bind

theorem startsAmong_of_subset (absent : startsAmong others characters = false)
    (subset : ∀ sign ∈ signs, others.contains sign = true) :
    startsAmong signs characters = false := by
  rw [Bool.eq_false_iff]
  intro among
  obtain ⟨next, more, rfl, member⟩ := head_of_startsAmong among
  have contained := subset next member
  rw [startsAmong, List.head?_cons, Option.any_some, contained] at absent
  cases absent

def literalSigns : List Char := ['"', '`', '\''] ++ numberSigns

theorem basicLiteral_misses (settled : Blank.skip start = start)
    (other : startsAmong literalSigns start.rest = false) : basicLiteral.Misses start := by
  have unquoted : startsAmong ['"', '`'] start.rest = false :=
    startsAmong_of_subset other (by decide)
  apply Misses.orElse
  · apply stringLiteral_misses
    rw [settled]
    exact unquoted
  · exact (runeLiteral_misses (startsAmong_of_subset other (by decide))).orElse
      (numberLiteral_misses (startsAmong_of_subset other (by decide)))

theorem basicLiteral_lasts (newLine : NewLine tail) {allowed : Expr → Cursor → Prop} :
    Endures tail allowed start basicLiteral := by
  have number {value : Expr} {rest : Cursor} (parsed : numberLiteral start = .done value rest) :
      startsAmong numberSigns start.rest = true := by
    cases among : startsAmong numberSigns start.rest with
    | true => rfl
    | false => exact absurd parsed (numberLiteral_misses among).not_done
  apply Lasts.orElse (stringLiteral_lasts newLine) (Lasts.orElse (runeLiteral_lasts newLine)
    (.of_matches (matches_of_plain newLine numberLiteral_plain)) ?_)
  · intro value rest parsed
    cases among : startsAmong ('\'' :: numberSigns) start.rest with
    | false =>
      have misses := (runeLiteral_misses (startsAmong_of_subset among (by decide))).orElse
        (numberLiteral_misses (startsAmong_of_subset among (by decide)))
      exact absurd parsed misses.not_done
    | true =>
      have unquoted : startsAmong ['"', '`'] (start.rest ++ tail) = false := by
        rw [startsAmong_followedBy newLine _ (by decide)]
        exact startsAmong_disjoint among (by decide)
      have stops := Blank.solid_followedBy newLine (solid_of_startsAmong among (by decide))
      apply stringLiteral_misses
      rw [Blank.skip_of_solid stops]
      exact unquoted
  · intro value rest parsed
    have among := number parsed
    rw [← startsAmong_followedBy newLine _ (by decide)] at among
    exact runeLiteral_misses (startsAmong_disjoint among (by decide))

theorem literalSigns_of_basicLiteral {value : Expr} (settled : Blank.skip start = start)
    (parsed : basicLiteral start = .done value rest) :
    startsAmong literalSigns start.rest = true := by
  cases among : startsAmong literalSigns start.rest with
  | true => rfl
  | false => exact absurd parsed (basicLiteral_misses settled among).not_done

theorem startsAmong_literalSigns_of_letter {next : Char} (letter : isIdentStart next = true)
    (more : List Char) : startsAmong literalSigns (next :: more) = false := by
  have noLetter : ∀ sign ∈ literalSigns, isIdentStart sign = false := by decide
  rw [Bool.eq_false_iff]
  intro among
  obtain ⟨_, _, ⟨⟩, member⟩ := head_of_startsAmong among
  rw [noLetter next member] at letter
  cases letter

theorem atom_lasts (newLine : NewLine tail) (settled : Blank.skip start = start)
    {allowed : Expr → Cursor → Prop} :
    Endures tail allowed start (basicLiteral <|> Expr.ident <$> identifier) := by
  apply Lasts.orElse (basicLiteral_lasts newLine) (.map (identifier_lasts newLine))
  intro value rest parsed
  obtain ⟨name, _, named, _⟩ := bind_eq_done.mp parsed
  obtain ⟨next, more, text, letter⟩ := identStart_of_isName (name_of_identifier named)
  rw [settled] at text
  have stops : Blank.solid (start.rest ++ tail) = true := by
    rw [text]
    exact solid_of_identChar (identChar_of_identStart letter) _
  apply basicLiteral_misses
  · exact Blank.skip_of_solid stops
  · change startsAmong literalSigns (start.rest ++ tail) = false
    rw [text]
    exact startsAmong_literalSigns_of_letter letter _

end Parser

end Unclosed.Grammar
