import Unclosed.Grammar.Error

/-!
Places of a text that reading leads to.  A cursor reaches another one when the
characters between them, taken from the text that is left, make up the
difference of their offsets.
-/

namespace Unclosed.Grammar

variable {start stop : Cursor} {offset : Nat} {characters : List Char}

def byteLength : List Char → Nat
  | [] => 0
  | next :: rest => next.utf8Size + byteLength rest

theorem byteLength_append (first second : List Char) :
    byteLength (first ++ second) = byteLength first + byteLength second := by
  induction first with
  | nil => simp [byteLength]
  | cons next rest ih =>
    simp only [List.cons_append, byteLength, ih]
    omega

theorem length_le_byteLength (characters : List Char) :
    characters.length ≤ byteLength characters := by
  induction characters with
  | nil => exact Nat.le_refl _
  | cons next rest ih =>
    have := next.utf8Size_pos
    simp only [List.length_cons, byteLength]
    omega

theorem utf8ByteSize_ofList (characters : List Char) :
    (String.ofList characters).utf8ByteSize = byteLength characters := by
  induction characters with
  | nil => rfl
  | cons next rest ih =>
    rw [String.ofList_cons, String.utf8ByteSize_append, String.utf8ByteSize_singleton,
      ih, byteLength]

theorem byteLength_toList (text : String) : byteLength text.toList = text.utf8ByteSize := by
  rw [← utf8ByteSize_ofList, String.ofList_toList]

def Cursor.Reaches (least : Nat) (start stop : Cursor) : Prop :=
  ∃ read, least ≤ read.length ∧ start.rest = read ++ stop.rest
    ∧ stop.offset = start.offset + byteLength read

namespace Cursor

namespace Reaches

variable {least more : Nat} {start middle stop : Cursor}

theorem refl (start : Cursor) : start.Reaches 0 start := ⟨[], by simp [byteLength]⟩

theorem trans (first : start.Reaches least middle) (second : middle.Reaches more stop) :
    start.Reaches (least + more) stop := by
  obtain ⟨read, enough, text, offset⟩ := first
  obtain ⟨read', enough', text', offset'⟩ := second
  refine ⟨read ++ read', ?_, ?_, ?_⟩
  · rw [List.length_append]
    omega
  · rw [text, text', List.append_assoc]
  · rw [offset', offset, byteLength_append]
    omega

section

variable (reaches : start.Reaches least stop)
include reaches

theorem mono (le : more ≤ least) : start.Reaches more stop := by
  obtain ⟨read, enough, found⟩ := reaches
  exact ⟨read, Nat.le_trans le enough, found⟩

theorem length_le : stop.rest.length + least ≤ start.rest.length := by
  obtain ⟨read, enough, text, _⟩ := reaches
  rw [text, List.length_append]
  omega

theorem offset_le : start.offset + least ≤ stop.offset := by
  obtain ⟨read, enough, _, offset⟩ := reaches
  have := length_le_byteLength read
  omega

end

theorem cons (next : Char) (offset : Nat) (rest : List Char) :
    Reaches 1 ⟨offset, next :: rest⟩ ⟨offset + next.utf8Size, rest⟩ :=
  ⟨[next], by simp [byteLength]⟩

theorem pair {next after : Char} (one : next.utf8Size = 1) (one' : after.utf8Size = 1)
    (offset : Nat) (rest : List Char) :
    Reaches 0 ⟨offset, next :: after :: rest⟩ ⟨offset + 2, rest⟩ :=
  ⟨[next, after], by simp [byteLength, one, one']⟩

theorem textTo_eq {read : List Char} (text : start.rest = read ++ stop.rest)
    (offset : stop.offset = start.offset + byteLength read) :
    start.textTo stop = String.ofList read := by
  have taken (read rest : List Char) : takeBytes (byteLength read) (read ++ rest) = read := by
    induction read with
    | nil => cases rest <;> rfl
    | cons next read ih =>
      have := next.utf8Size_pos
      rw [List.cons_append, byteLength, takeBytes, if_neg (by omega), Nat.add_sub_cancel_left, ih]
  rw [textTo, offset, Nat.add_sub_cancel_left, text, taken]

end Reaches

/-! ### Places of a source text -/

def In (source : String) (cursor : Cursor) : Prop := (ofText source).Reaches 0 cursor

namespace In

variable {source : String} {start stop : Cursor}

theorem of_reaches {least : Nat} (inside : start.In source) (reaches : start.Reaches least stop) :
    stop.In source :=
  (Reaches.trans inside reaches).mono (Nat.zero_le _)

theorem text (inside : start.In source) :
    ∃ before, source.toList = before ++ start.rest ∧ start.offset = byteLength before := by
  obtain ⟨before, _, text, offset⟩ := inside
  rw [ofText, Nat.zero_add] at offset
  exact ⟨before, text, offset⟩

theorem isValid (inside : start.In source) : String.Pos.Raw.IsValid source ⟨start.offset⟩ := by
  obtain ⟨before, text, offset⟩ := inside.text
  apply String.Pos.Raw.isValid_iff_exists_append.mpr
  refine ⟨String.ofList before, String.ofList start.rest, ?_, ?_⟩
  · rw [← String.ofList_append, ← text, String.ofList_toList]
  · rw [String.rawEndPos, utf8ByteSize_ofList, offset]

theorem offset_le (inside : start.In source) : start.offset ≤ source.utf8ByteSize := by
  obtain ⟨before, text, offset⟩ := inside.text
  rw [← byteLength_toList, text, byteLength_append]
  omega

end In

/-! ### Steps of a cursor -/

theorem reaches_of_afterChars? {word : List Char} (found : afterChars? word start = some stop) :
    start.Reaches word.length stop := by
  fun_induction afterChars? word start with
  | case1 start =>
    cases found
    exact .refl _
  | case2 more offset next rest ih =>
    have further := (Reaches.cons next offset rest).trans (ih found)
    rwa [Nat.add_comm] at further
  | case3 => cases found
  | case4 => cases found

theorem reaches_of_after? {word : String} (found : start.after? word = some stop) :
    start.Reaches word.toList.length stop :=
  reaches_of_afterChars? found

theorem reaches_of_afterChar? {predicate : Char → Bool}
    (found : afterChar? predicate start = some stop) : start.Reaches 1 stop := by
  unfold afterChar? at found
  split at found
  · split at found
    · cases found
      exact .cons _ _ _
    · cases found
  · cases found

theorem reaches_skipWhileFrom (predicate : Char → Bool) (offset : Nat) (characters : List Char) :
    Reaches 0 ⟨offset, characters⟩ (skipWhileFrom predicate offset characters) := by
  fun_induction skipWhileFrom predicate offset characters with
  | case1 => exact .refl _
  | case2 offset next rest holds ih =>
    exact ((Reaches.cons next offset rest).trans ih).mono (Nat.zero_le _)
  | case3 => exact .refl _

theorem reaches_skipWhile (predicate : Char → Bool) (start : Cursor) :
    start.Reaches 0 (start.skipWhile predicate) :=
  reaches_skipWhileFrom predicate start.offset start.rest

end Cursor

/-! ### Comments and strings -/

theorem Blank.reaches_of_blockEndFrom {crossed crosses : Bool}
    (found : blockEndFrom crossed offset characters = some (crosses, stop)) :
    Cursor.Reaches 0 ⟨offset, characters⟩ stop := by
  fun_induction blockEndFrom crossed offset characters with
  | case1 =>
    cases found
    exact ⟨['*', '/'], by simp, rfl, rfl⟩
  | case2 crossed offset next rest _ ih =>
    exact ((Cursor.Reaches.cons next offset rest).trans (ih found)).mono (Nat.zero_le _)
  | case3 => cases found

theorem reaches_of_quotedBodyFrom (found : quotedBodyFrom offset characters = some stop) :
    Cursor.Reaches 0 ⟨offset, characters⟩ stop := by
  fun_induction quotedBodyFrom offset characters with
  | case1 | case4 =>
    cases found
    exact .refl _
  | case2 => cases found
  | case3 offset escaped rest ih =>
    have step : Cursor.Reaches 0 ⟨offset, '\\' :: escaped :: rest⟩
        ⟨offset + 1 + escaped.utf8Size, rest⟩ := by
      refine ⟨['\\', escaped], by simp, rfl, ?_⟩
      have one : '\\'.utf8Size = 1 := rfl
      simp only [byteLength, one]
      omega
    exact step.trans (ih found)
  | case5 offset next rest _ _ _ ih =>
    exact ((Cursor.Reaches.cons next offset rest).trans (ih found)).mono (Nat.zero_le _)

theorem reaches_skipQuotedBody (start : Cursor) : start.Reaches 0 (skipQuotedBody start) := by
  unfold skipQuotedBody
  cases found : quotedBodyFrom start.offset start.rest with
  | none => exact .refl _
  | some stop => exact reaches_of_quotedBodyFrom found

/-! ### Results of parsers -/

namespace Parser

variable {α β : Type} {start rest : Cursor}

theorem bind_eq_done {parser : Parser α} {next : α → Parser β} {value : β} :
    (parser >>= next) start = .done value rest ↔
      ∃ read middle, parser start = .done read middle ∧ next read middle = .done value rest := by
  change Parser.bind parser next start = _ ↔ _
  rw [Parser.bind]
  cases parser start with
  | done read middle =>
    constructor
    · exact fun parsed => ⟨read, middle, rfl, parsed⟩
    · rintro ⟨_, _, ⟨⟩, parsed⟩
      exact parsed
  | miss fault => simp
  | halt fault => simp

@[simp] theorem pure_eq_done {value result : α} :
    (pure value : Parser α) start = .done result rest ↔ value = result ∧ start = rest := by
  change Reply.done value start = _ ↔ _
  simp

theorem map_eq_done {f : α → β} {parser : Parser α} {value : β} :
    (f <$> parser) start = .done value rest ↔
      ∃ found, parser start = .done found rest ∧ f found = value := by
  change (parser >>= fun found => pure (f found)) start = _ ↔ _
  rw [bind_eq_done]
  constructor
  · rintro ⟨found, middle, parsed, given⟩
    obtain ⟨rfl, rfl⟩ := pure_eq_done.mp given
    exact ⟨found, parsed, rfl⟩
  · rintro ⟨found, parsed, rfl⟩
    exact ⟨found, rest, parsed, rfl⟩

theorem context_eq_done {label : String} {parser : Parser α} {value : α} :
    context label parser start = .done value rest ↔ parser start = .done value rest := by
  unfold context
  cases parser start <;> simp

theorem orElse_eq_done {first second : Parser α} {value : α} :
    (first <|> second) start = .done value rest ↔ first start = .done value rest
      ∨ (∃ fault, first start = .miss fault) ∧ second start = .done value rest := by
  change orElse first (fun _ => second) start = _ ↔ _
  rw [orElse]
  cases first start with
  | done found place => simp
  | halt fault => simp
  | miss fault => cases second start <;> simp

def Fails (parser : Parser α) : Prop := ∀ start value rest, parser start ≠ .done value rest

theorem fail_fails : (fail : Parser α).Fails := fun _ _ _ parsed => by cases parsed

theorem failSaying_fails (message : String) : (failSaying message : Parser α).Fails :=
  fun _ _ _ parsed => by cases parsed

theorem haltSaying_fails (message : String) : (haltSaying message : Parser α).Fails :=
  fun _ _ _ parsed => by cases parsed

theorem Fails.bind {parser : Parser α} (fails : parser.Fails) (next : α → Parser β) :
    (parser >>= next).Fails := by
  intro start value rest parsed
  obtain ⟨result, middle, parsedFirst, _⟩ := bind_eq_done.mp parsed
  exact fails start result middle parsedFirst

end Parser

end Unclosed.Grammar
