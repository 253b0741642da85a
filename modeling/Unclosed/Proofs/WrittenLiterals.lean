import Unclosed.Proofs.LastingTypes

/-!
Literals that are written are read back.  A string between quotes with its escapes,
a string between backquotes and a character between single quotes are taken as one
literal, whatever follows, and a string literal denotes the string that was written.
-/

namespace Unclosed.Grammar

open Grammar.Parser

/-! ### Writing -/

namespace Written

def escape (character : Char) : List Char :=
  if character = '\\' then ['\\', '\\']
  else if character = '"' then ['\\', '"']
  else if character = '\n' then ['\\', 'n']
  else if character = '\t' then ['\\', 't']
  else if character = '\r' then ['\\', 'r']
  else [character]

def interpreted (text : String) : String :=
  String.ofList ('"' :: (text.toList.flatMap escape ++ ['"']))

def raw (text : String) : String := String.ofList ('`' :: (text.toList ++ ['`']))

def escapeRune (character : Char) : List Char :=
  if character = '\'' then ['\\', '\'']
  else if character = '\\' then ['\\', '\\']
  else if character = '\n' then ['\\', 'n']
  else [character]

def rune (character : Char) : String :=
  String.ofList ('\'' :: (escapeRune character ++ ['\'']))

/-- A written character is an escape, or it is itself and ends no literal. -/
theorem escape_cases (character : Char) :
    (∃ mark, escape character = ['\\', mark] ∧ ∀ later, unescape ('\\' :: mark :: later) =
        character :: unescape later)
      ∨ escape character = [character] ∧ character ≠ '\\' ∧ character ≠ '"' ∧ character ≠ '\n' := by
  by_cases special : character ∈ ['\\', '"', '\n', '\t', '\r']
  · left
    simp only [List.mem_cons, List.not_mem_nil, or_false] at special
    rcases special with rfl | rfl | rfl | rfl | rfl
    · exact ⟨'\\', rfl, fun _ => rfl⟩
    · exact ⟨'"', rfl, fun _ => rfl⟩
    · exact ⟨'n', rfl, fun _ => rfl⟩
    · exact ⟨'t', rfl, fun _ => rfl⟩
    · exact ⟨'r', rfl, fun _ => rfl⟩
  · right
    simp only [List.mem_cons, List.not_mem_nil, or_false, not_or] at special
    obtain ⟨plain, unquoted, inLine, noTab, noReturn⟩ := special
    refine ⟨?_, plain, unquoted, inLine⟩
    rw [escape, if_neg plain, if_neg unquoted, if_neg inLine, if_neg noTab, if_neg noReturn]

end Written

open Written

/-! ### Denoted strings -/

theorem unescape_cons {next : Char} (plain : next ≠ '\\') (rest : List Char) :
    unescape (next :: rest) = next :: unescape rest := by
  rw [unescape]
  all_goals
    intros
    contradiction

theorem unescape_escape (characters : List Char) :
    unescape (characters.flatMap escape) = characters := by
  induction characters with
  | nil => rfl
  | cons next later ih =>
    rw [List.flatMap_cons]
    rcases escape_cases next with ⟨mark, written, resolved⟩ | ⟨written, plain, _⟩
    · rw [written]
      exact (resolved _).trans (congrArg _ ih)
    · rw [written, List.singleton_append, unescape_cons plain, ih]

theorem dropLast?_append (last : Char) (characters : List Char) :
    dropLast? last (characters ++ [last]) = some characters := by
  unfold dropLast?
  rw [List.getLast?_concat]
  dsimp only
  rw [if_pos rfl, List.dropLast_concat]

theorem unquote_interpreted (text : String) : unquote (interpreted text) = text := by
  have body : (interpreted text).toList = '"' :: (text.toList.flatMap escape ++ ['"']) :=
    String.toList_ofList
  rw [unquote, body]
  simp only [dropLast?_append, unescape_escape, String.ofList_toList]

theorem unquote_raw (text : String) : unquote (raw text) = text := by
  have body : (raw text).toList = '`' :: (text.toList ++ ['`']) := String.toList_ofList
  rw [unquote, body]
  simp only [dropLast?_append, Option.getD_some, String.ofList_toList]

/-! ### Scans -/

/-- The scan of a string goes over all that was written, up to the closing quote. -/
theorem quotedBodyFrom_escape (offset : Nat) (characters after : List Char) :
    quotedBodyFrom offset (characters.flatMap escape ++ '"' :: after) =
      some ⟨offset + byteLength (characters.flatMap escape), '"' :: after⟩ := by
  induction characters generalizing offset with
  | nil => rfl
  | cons next later ih =>
    rw [List.flatMap_cons, byteLength_append, List.append_assoc]
    rcases escape_cases next with ⟨mark, written, _⟩ | ⟨written, plain, unquoted, inLine⟩
    · rw [written, List.cons_append, List.singleton_append, quotedBodyFrom, ih]
      have one : '\\'.utf8Size = 1 := rfl
      simp only [byteLength, one, Option.some_inj, Cursor.mk.injEq, and_true]
      omega
    · rw [written, List.singleton_append, quotedBodyFrom_cons plain,
        if_neg (by simp [unquoted, inLine]), ih]
      simp only [byteLength, Option.some_inj, Cursor.mk.injEq, and_true]
      omega

theorem skipWhileFrom_append {predicate : Char → Bool} {characters : List Char} {stop : Char}
    (all : ∀ next ∈ characters, predicate next = true) (stops : predicate stop = false)
    (offset : Nat) (after : List Char) :
    Cursor.skipWhileFrom predicate offset (characters ++ stop :: after) =
      ⟨offset + byteLength characters, stop :: after⟩ := by
  have stops : ¬ predicate stop = true := by rw [stops]; exact Bool.false_ne_true
  rw [skipWhileFrom_eq, List.takeWhile_append_of_pos all, List.dropWhile_append_of_pos all,
    List.takeWhile_cons_of_neg stops, List.dropWhile_cons_of_neg stops, List.append_nil]

/-! ### Reading -/

def ReadsLiteral (parser : Parser Expr) (kind : LiteralKind) (text : String) : Prop :=
  ∀ (offset : Nat) (after : List Char),
    parser ⟨offset, text.toList ++ after⟩ =
      .done (.literal ⟨offset, offset + text.utf8ByteSize⟩ kind text)
        ⟨offset + text.utf8ByteSize, after⟩

section Texts

variable {offset : Nat} {after : List Char}

/-- A text between two marks that is scanned up to the second one. -/
theorem spelled_between {mark : String} {quote : Char} {inner : Parser Unit} {body : List Char}
    (one : quote.utf8Size = 1)
    (spells : ∀ offset rest, tag mark ⟨offset, quote :: rest⟩ = .done () ⟨offset + 1, rest⟩)
    (crosses : inner ⟨offset + 1, body ++ quote :: after⟩ =
      .done () ⟨offset + 1 + byteLength body, quote :: after⟩) :
    (do tag mark; inner; tag mark : Parser Unit) ⟨offset, quote :: (body ++ [quote]) ++ after⟩ =
      .done () ⟨offset + byteLength (quote :: (body ++ [quote])), after⟩ := by
  have length : offset + byteLength (quote :: (body ++ [quote])) =
      offset + 1 + byteLength body + 1 := by
    simp only [byteLength, byteLength_append, one]
    omega
  rw [List.cons_append, List.append_assoc, List.singleton_append, bind_of_done (spells _ _),
    bind_of_done crosses, spells, length]

/-- A text that a parser goes over is the text of the literal. -/
theorem literal_of_spelled {word : Parser Unit} {text : List Char} (kind : LiteralKind)
    (spelled : word ⟨offset, text ++ after⟩ = .done () ⟨offset + byteLength text, after⟩) :
    (do let (value, span) ← recognize word; pure (.literal span kind value) : Parser Expr)
        ⟨offset, (String.ofList text).toList ++ after⟩ =
      .done (.literal ⟨offset, offset + (String.ofList text).utf8ByteSize⟩ kind (String.ofList text))
        ⟨offset + (String.ofList text).utf8ByteSize, after⟩ := by
  have taken : (⟨offset, text ++ after⟩ : Cursor).textTo ⟨offset + byteLength text, after⟩ =
      String.ofList text := Cursor.Reaches.textTo_eq rfl rfl
  have found : recognize word ⟨offset, text ++ after⟩ =
      .done (String.ofList text, ⟨offset, offset + byteLength text⟩)
        ⟨offset + byteLength text, after⟩ := by
    rw [← taken]
    exact bind_of_done spelled
  rw [String.toList_ofList, utf8ByteSize_ofList]
  exact bind_of_done found

end Texts

/-! ### Strings -/

/-- No blank stands before a string, so its text alone decides. -/
theorem stringLiteral_reads {text : List Char}
    (solid : ∀ after, Blank.solid (text ++ after) = true)
    (spelled : ∀ offset after,
      ((do tag "\""; skip skipQuotedBody; tag "\"")
        <|> (do tag "`"; takeWhile (· ≠ '`'); tag "`") : Parser Unit) ⟨offset, text ++ after⟩ =
      .done () ⟨offset + byteLength text, after⟩) :
    ReadsLiteral stringLiteral .string (String.ofList text) := by
  intro offset after
  have blank : blanks ⟨offset, (String.ofList text).toList ++ after⟩ =
      .done () ⟨offset, (String.ofList text).toList ++ after⟩ := by
    rw [String.toList_ofList]
    exact congrArg (Reply.done ()) (Blank.skip_of_solid (solid after))
  rw [stringLiteral, bind_of_done blank]
  exact literal_of_spelled .string (spelled offset after)

theorem interpreted_read (text : String) :
    ReadsLiteral stringLiteral .string (interpreted text) := by
  apply stringLiteral_reads
  · exact fun _ => Blank.solid_cons _ (by decide)
  · intro offset after
    refine orElse_eq_done.mpr (.inl ?_)
    apply spelled_between rfl fun _ _ => rfl
    rw [skip, skipQuotedBody, quotedBodyFrom_escape, Option.getD_some]

theorem raw_read {text : String} (unquoted : '`' ∉ text.toList) :
    ReadsLiteral stringLiteral .string (raw text) := by
  apply stringLiteral_reads
  · exact fun _ => Blank.solid_cons _ (by decide)
  · intro offset after
    refine orElse_eq_done.mpr (.inr ⟨Misses.bind (tag_misses rfl), ?_⟩)
    apply spelled_between rfl fun _ _ => rfl
    rw [takeWhile, skip, Cursor.skipWhile, skipWhileFrom_append _ (by decide)]
    intro next member
    simp only [ne_eq, decide_eq_true_eq]
    rintro rfl
    exact unquoted member

/-- A string that is written as a literal of either kind is read as that literal, whatever
follows, and the literal denotes the string.  A raw literal holds no backquote. -/
theorem string_literals_decode (text : String) :
    (ReadsLiteral stringLiteral .string (interpreted text) ∧ unquote (interpreted text) = text) ∧
      ('`' ∉ text.toList →
        ReadsLiteral stringLiteral .string (raw text) ∧ unquote (raw text) = text) :=
  ⟨⟨interpreted_read text, unquote_interpreted text⟩,
    fun unquoted => ⟨raw_read unquoted, unquote_raw text⟩⟩

/-- A string with a backslash, quotes of both kinds, a line end and a letter of two bytes. -/
theorem mixed_string_decodes :
    '`' ∉ "é\\\"'\n".toList ∧ ReadsLiteral stringLiteral .string (raw "é\\\"'\n")
      ∧ unquote (raw "é\\\"'\n") = "é\\\"'\n"
      ∧ interpreted "é\\\"'\n" = "\"é\\\\\\\"'\\n\""
      ∧ unquote (interpreted "é\\\"'\n") = "é\\\"'\n" := by
  have decoded := string_literals_decode "é\\\"'\n"
  have unquoted : '`' ∉ "é\\\"'\n".toList := by decide
  obtain ⟨read, denoted⟩ := decoded.2 unquoted
  exact ⟨unquoted, read, denoted, by decide, decoded.1.2⟩

/-! ### Runes -/

theorem escapeRune_cases {character : Char} (unquoted : character ≠ '\'') :
    (∃ mark, escapeRune character = ['\\', mark] ∧ mark ≠ '\'')
      ∨ escapeRune character = [character] ∧ character ≠ '\\' ∧ character ≠ '\n' := by
  rw [escapeRune, if_neg unquoted]
  split
  · exact .inl ⟨'\\', rfl, by decide⟩
  · next plain =>
    split
    · exact .inl ⟨'n', rfl, by decide⟩
    · next inLine => exact .inr ⟨rfl, plain, inLine⟩

/-- What stands between the quotes is crossed, if it is not a quote itself. -/
theorem runeBody_crosses {character : Char} (unquoted : character ≠ '\'') (offset : Nat)
    (after : List Char) :
    ((do tag "\\"; takeWhile1 (· ≠ '\''))
        <|> satisfy (fun next => next ≠ '\'' && next ≠ '\\' && next ≠ '\n') : Parser Unit)
        ⟨offset, escapeRune character ++ '\'' :: after⟩ =
      .done () ⟨offset + byteLength (escapeRune character), '\'' :: after⟩ := by
  rcases escapeRune_cases unquoted with ⟨mark, written, other⟩ | ⟨written, plain, inLine⟩
  · have begun : tag "\\" ⟨offset, '\\' :: mark :: '\'' :: after⟩ =
        .done () ⟨offset + 1, mark :: '\'' :: after⟩ := rfl
    have marked : satisfy (· ≠ '\'') ⟨offset + 1, mark :: '\'' :: after⟩ =
        .done () ⟨offset + 1 + mark.utf8Size, '\'' :: after⟩ := by
      rw [satisfy_eq_done, Cursor.afterChar?, if_pos (by simp [other])]
    have one : '\\'.utf8Size = 1 := rfl
    rw [written]
    refine orElse_eq_done.mpr (.inl ?_)
    rw [List.cons_append, List.singleton_append, bind_of_done begun, takeWhile1, bind_of_done marked]
    simp only [byteLength, one, ← Nat.add_assoc]
    rfl
  · rw [written, List.singleton_append]
    refine orElse_eq_done.mpr (.inr ⟨?_, ?_⟩)
    · exact Misses.bind (tag_misses (after?_eq_none (by simpa using plain)))
    · rw [satisfy_eq_done, Cursor.afterChar?, if_pos (by simp [unquoted, plain, inLine])]
      rfl

theorem stringLiteral_misses_rune (offset : Nat) (rest : List Char) :
    stringLiteral.Misses ⟨offset, '\'' :: rest⟩ := by
  apply stringLiteral_misses
  rw [Blank.skip_of_solid (Blank.solid_cons rest (by decide))]
  rfl

/-- The scan behind a backslash goes to the next quote and takes at least one character,
so a quote that is written as an escape is taken for the end. -/
theorem quoteRune_misses (offset : Nat) (after : List Char) :
    basicLiteral.Misses ⟨offset, (rune '\'').toList ++ after⟩ := by
  have escaped : Misses (do tag "\\"; takeWhile1 (· ≠ '\''))
      ⟨offset + 1, '\\' :: '\'' :: '\'' :: after⟩ := ⟨_, rfl⟩
  have single : Misses (satisfy fun next => next ≠ '\'' && next ≠ '\\' && next ≠ '\n')
      ⟨offset + 1, '\\' :: '\'' :: '\'' :: after⟩ := ⟨_, rfl⟩
  have opened : tag "'" ⟨offset, '\'' :: '\\' :: '\'' :: '\'' :: after⟩ =
      .done () ⟨offset + 1, '\\' :: '\'' :: '\'' :: after⟩ := rfl
  have rune : runeLiteral.Misses ⟨offset, '\'' :: '\\' :: '\'' :: '\'' :: after⟩ := by
    apply Misses.bind
    apply Misses.recognize
    rw [Misses, bind_of_done opened]
    exact (escaped.orElse single).bind
  exact (stringLiteral_misses_rune offset _).orElse (rune.orElse (numberLiteral_misses rfl))

/-- Every character but the single quote has a rune literal that is read as such, whatever
follows.  That of the single quote is never read. -/
theorem rune_literals_read (character : Char) :
    if character = '\'' then
      ∀ offset after, basicLiteral.Misses ⟨offset, (rune character).toList ++ after⟩
    else ReadsLiteral basicLiteral .char (rune character) := by
  split
  · next quote =>
    rw [quote]
    exact quoteRune_misses
  · next unquoted =>
    intro offset after
    refine orElse_eq_done.mpr (.inr ⟨?_, orElse_eq_done.mpr (.inl ?_)⟩)
    · rw [rune, String.toList_ofList]
      exact stringLiteral_misses_rune offset _
    · apply literal_of_spelled .char
      exact spelled_between rfl (fun _ _ => rfl) (runeBody_crosses unquoted (offset + 1) after)

/-- The literal of the single quote is no literal for the parser. -/
theorem quote_rune_unread :
    rune '\'' = "'\\''" ∧ basicLiteral.Misses (Cursor.ofText "'\\''") :=
  ⟨rfl, quoteRune_misses 0 []⟩

end Unclosed.Grammar
