import Mathlib.Data.List.ReduceOption
import Unclosed.Proofs.LastingExpressions

/-!
Parameter lists.  The entries between the parentheses are divided by commas; a list
without any name is a list of types, and in a list with names the bare names wait for
the type that follows them.  An entry that this rule gives no name or no type is left
out, so that the list is kept whole exactly when the rule explains all of it.
-/

namespace Unclosed

abbrev Slot : Type := Option Ident × TypeExpr

def Field.slots : Field → List Slot
  | .mk names type _ _ =>
    if names.isEmpty then [(none, type)] else names.map fun name => (some name, type)

def fieldSlots (fields : List Field) : List Slot := fields.flatMap Field.slots

namespace Grammar

open Grammar.Parser

variable {entries : List FieldEntry}

/-! ### The grouping rule -/

def FieldEntry.word? : FieldEntry → Option Ident
  | ⟨some name, _, _⟩ => some name
  | ⟨none, .name _ ident, _⟩ => some ident
  | ⟨none, _, _⟩ => none

def nextType? : List FieldEntry → Option TypeExpr
  | [] => none
  | entry :: later => if entry.name.isSome then some entry.type else nextType? later

def namedSlots : List FieldEntry → List (Option Slot)
  | [] => []
  | entry :: later =>
    (entry.word?.bind fun name => (nextType? (entry :: later)).map fun type => (some name, type))
      :: namedSlots later

def entrySlots (entries : List FieldEntry) : List (Option Slot) :=
  if entries.all (·.name.isNone) then entries.map fun entry => some (none, entry.type)
  else namedSlots entries

/-- The list is one of types, or one of names that ends in a name with its type. -/
def Groupable (entries : List FieldEntry) : Prop :=
  (∀ entry ∈ entries, entry.name = none)
    ∨ (∀ entry ∈ entries, entry.word?.isSome = true)
      ∧ ∃ last, entries.getLast? = some last ∧ last.name.isSome = true

theorem length_entrySlots (entries : List FieldEntry) :
    (entrySlots entries).length = entries.length := by
  have named : (namedSlots entries).length = entries.length := by
    induction entries with
    | nil => rfl
    | cons entry later ih =>
      rw [namedSlots, List.length_cons, ih, List.length_cons]
  unfold entrySlots
  split
  · exact List.length_map _
  · exact named

/-- Names that wait get the next type; without one they are lost. -/
theorem slots_groupNamed (pending : List (Ident × Span)) (entries : List FieldEntry) :
    fieldSlots (groupNamed pending entries) =
      ((nextType? entries).toList.flatMap fun type =>
        pending.map fun waiting => (some waiting.1, type)) ++ (namedSlots entries).reduceOption := by
  fun_induction groupNamed pending entries with
  | case1 => rfl
  | case2 pending name type span later covered ih =>
    have field : Field.slots (.mk (pending.map Prod.fst ++ [name]) type none covered) =
        pending.map (fun waiting => (some waiting.1, type)) ++ [(some name, type)] := by
      simp [Field.slots, Function.comp_def]
    rw [fieldSlots, List.flatMap_cons, field, ← fieldSlots, ih]
    simp [namedSlots, nextType?, FieldEntry.word?]
  | case3 pending place ident span later ih =>
    rw [ih]
    cases next : nextType? later <;> simp [namedSlots, nextType?, FieldEntry.word?, next]
  | case4 pending type span later other ih =>
    have nameless : FieldEntry.word? ⟨none, type, span⟩ = none := by
      cases type with
      | name place ident => exact absurd rfl (other place ident)
      | _ => rfl
    rw [ih]
    simp [namedSlots, nextType?, nameless]

theorem slots_groupParams (entries : List FieldEntry) :
    fieldSlots (groupParams entries) = (entrySlots entries).reduceOption := by
  unfold groupParams entrySlots
  split
  · simp [fieldSlots, Field.slots, List.reduceOption, List.flatMap_map, ← List.map_eq_flatMap]
  · simp [slots_groupNamed]

theorem isSome_nextType? :
    (nextType? entries).isSome = true ↔ ∃ entry ∈ entries, entry.name.isSome = true := by
  induction entries with
  | nil => simp [nextType?]
  | cons entry later ih =>
    by_cases named : entry.name.isSome = true <;> simp [nextType?, named, ih]

/-- In a list with names nothing is lost exactly if all entries are names and the last one has
a type. -/
theorem namedSlots_all_iff :
    (∀ slot ∈ namedSlots entries, slot.isSome = true) ↔
      (∀ entry ∈ entries, entry.word?.isSome = true)
        ∧ ∀ last ∈ entries.getLast?, last.name.isSome = true := by
  induction entries with
  | nil => simp [namedSlots]
  | cons entry later ih =>
    have head : (entry.word?.bind fun name =>
        (nextType? (entry :: later)).map fun type => ((some name, type) : Slot)).isSome = true ↔
          entry.word?.isSome = true ∧ ∃ other ∈ entry :: later, other.name.isSome = true := by
      rw [← isSome_nextType?]
      cases entry.word? <;> simp
    rw [namedSlots, List.forall_mem_cons, head, ih, List.forall_mem_cons]
    cases later with
    | nil => simp
    | cons second others =>
      rw [List.getLast?_cons_cons]
      constructor
      · rintro ⟨⟨word, -⟩, words, typed⟩
        exact ⟨⟨word, words⟩, typed⟩
      · rintro ⟨⟨word, words⟩, typed⟩
        have last := List.getLast?_eq_some_getLast (List.cons_ne_nil second others)
        refine ⟨⟨word, _, List.mem_cons_of_mem _ (List.getLast_mem _), typed _ last⟩, words, typed⟩

theorem groupable_iff : Groupable entries ↔ ∀ slot ∈ entrySlots entries, slot.isSome = true := by
  unfold Groupable entrySlots
  split
  · next types => simp_all
  · next named =>
    rw [namedSlots_all_iff]
    have mixed : ¬ ∀ entry ∈ entries, entry.name = none := by simpa using named
    have nonempty : entries ≠ [] := by
      rintro rfl
      exact named rfl
    simp [mixed, List.getLast?_eq_some_getLast nonempty]

theorem slots_of_groupable (groupable : Groupable entries) :
    (fieldSlots (groupParams entries)).map some = entrySlots entries := by
  rw [slots_groupParams]
  have all := groupable_iff.mp groupable
  generalize entrySlots entries = slots at all
  induction slots with
  | nil => rfl
  | cons slot later ih =>
    obtain ⟨found, others⟩ := List.forall_mem_cons.mp all
    obtain ⟨value, rfl⟩ := Option.isSome_iff_exists.mp found
    rw [List.reduceOption_cons_of_some, List.map_cons, ih others]

theorem slots_length_lt (mixed : ¬ Groupable entries) :
    (fieldSlots (groupParams entries)).length < entries.length := by
  rw [slots_groupParams, ← length_entrySlots entries, List.reduceOption_length_lt_iff]
  simpa [groupable_iff] using mixed

/-- What the fields of a list declare, set against the entries that the list was read from. -/
structure Accounts (entries : List FieldEntry) (fields : List Field) : Prop where
  /-- Of each entry there is what it declares, in the same order. -/
  slots : fieldSlots fields = (entrySlots entries).reduceOption
  whole : Groupable entries → (fieldSlots fields).map some = entrySlots entries
  short : ¬ Groupable entries → (fieldSlots fields).length < entries.length
  count_iff : (fieldSlots fields).length = entries.length ↔ Groupable entries

theorem accounts_groupParams (entries : List FieldEntry) :
    Accounts entries (groupParams entries) where
  slots := slots_groupParams entries
  whole := slots_of_groupable
  short := slots_length_lt
  count_iff := by
    constructor
    · intro same
      by_contra mixed
      exact absurd same (Nat.ne_of_lt (slots_length_lt mixed))
    · intro groupable
      rw [← length_entrySlots entries, ← slots_of_groupable groupable, List.length_map]

/-! ### Lists as they are read -/

/-- Entries divided by commas, up to the closing parenthesis, which is left unread. -/
inductive EntriesRead (rules : Rules) : Cursor → List FieldEntry → Cursor → Prop where
  | none {start : Cursor} (closes : (Blank.skip start).startsWith ")" = true) :
      EntriesRead rules start [] (Blank.skip start)
  | last {start rest : Cursor} {entry : FieldEntry}
      (goesOn : (Blank.skip start).startsWith ")" = false)
      (reads : fieldEntry rules (Blank.skip start) = .done entry rest)
      (ends : (Blank.skip rest).startsWith "," = false) :
      EntriesRead rules start [entry] rest
  | more {start rest next stop : Cursor} {entry : FieldEntry} {later : List FieldEntry}
      (goesOn : (Blank.skip start).startsWith ")" = false)
      (reads : fieldEntry rules (Blank.skip start) = .done entry rest)
      (comma : (Blank.skip rest).after? "," = some next)
      (others : EntriesRead rules next later stop) :
      EntriesRead rules start (entry :: later) stop

inductive ListRead (rules : Rules) (start : Cursor) (entries : List FieldEntry) (stop : Cursor) :
    Prop where
  | mk {inside last : Cursor} (opens : start.after? "(" = some inside)
      (reads : EntriesRead rules inside entries last)
      (closes : (Blank.skip last).after? ")" = some stop)

section Reading

variable {rules : Rules} {start rest : Cursor}

theorem isDone_symbol (word : String) (start : Cursor) :
    (symbol word start).isDone = (Blank.skip start).startsWith word := by
  change (tag word (Blank.skip start)).isDone = _
  unfold tag move Cursor.startsWith
  cases (Blank.skip start).after? word <;> rfl

theorem entriesRead_of_collect (bound : Nat) {entries : List FieldEntry}
    (parsed : collect (parameterTurn rules) bound start = .done entries rest) :
    EntriesRead rules start entries rest := by
  induction bound generalizing start entries with
  | zero => cases parsed
  | succ bound ih =>
    obtain ⟨turn, middle, taken, later⟩ := bind_eq_done.mp parsed
    change (if (Blank.skip start).startsWith ")" = true then
      (pure Turn.stop : Parser (Turn FieldEntry)) else _) (Blank.skip start) = _ at taken
    cases closes : (Blank.skip start).startsWith ")" with
    | true =>
      rw [closes] at taken
      cases taken
      cases later
      exact .none closes
    | false =>
      rw [closes] at taken
      obtain ⟨entry, place, reads, taken⟩ := bind_eq_done.mp taken
      have reads := context_eq_done.mp reads
      rcases accepts_cases taken with ⟨next, comma, given⟩ | ⟨noComma, given⟩
      · cases given
        obtain ⟨others, stop, collected, given⟩ := bind_eq_done.mp later
        cases given
        exact .more closes reads (symbol_eq_done.mp comma) (ih collected)
      · cases given
        cases later
        exact .last closes reads ((isDone_symbol _ _).symm.trans noComma)

theorem listRead_of_results {fields : List Field} (opens : start.startsWith "(" = true)
    (parsed : results rules start = .done fields rest) :
    ∃ entries, ListRead rules start entries rest ∧ Accounts entries fields := by
  obtain ⟨inside, opened⟩ := Option.isSome_iff_exists.mp opens
  have text : start.rest = '(' :: inside.rest := Cursor.text_of_after? opened
  have goesOn : endsSignature start = false := by
    unfold endsSignature
    rw [text]
    rfl
  change (if endsSignature start = true then (pure [] : Parser (List Field))
    else accept "(" >>= fun opened => _) start = _ at parsed
  rw [goesOn, if_neg Bool.false_ne_true, accept_bind_apply, opened] at parsed
  obtain ⟨entries, last, reads, parsed⟩ := bind_eq_done.mp parsed
  obtain ⟨_, place, closes, given⟩ := bind_eq_done.mp parsed
  cases given
  exact ⟨entries, ⟨opened, entriesRead_of_collect _ reads, symbol_eq_done.mp closes⟩,
    accounts_groupParams entries⟩

end Reading

/-- A signature has the parameters that its entries declare, in their order.  They are as many
as the entries exactly if the entries are all types, or all names of which the last has a type;
any other list is not refused but shortened.  The same holds of results in parentheses. -/
theorem signature_whole_iff_groupable {rules : Rules} {start rest : Cursor}
    {params results : List Field} {span : Span}
    (parsed : signature rules start = .done (.mk params results span) rest) :
    ∃ entries stop, ListRead rules (Blank.skip start) entries stop ∧ Accounts entries params
      ∧ ((Blank.skipInLine stop).startsWith "(" = true → ∃ resultEntries,
          ListRead rules (Blank.skipInLine stop) resultEntries rest
            ∧ Accounts resultEntries results) := by
  obtain ⟨_, inside, opens, parsed⟩ := bind_eq_done.mp (show
    (tag "(" >>= fun _ => fieldEntries rules >>= fun entries => symbol ")" >>= fun _ =>
      lineBlanks >>= fun _ => Grammar.results rules >>= fun fields =>
        spanFrom (Blank.skip start) >>= fun span =>
          pure (Signature.mk (groupParams entries) fields span))
      (Blank.skip start) = _ from parsed)
  obtain ⟨entries, last, reads, parsed⟩ := bind_eq_done.mp parsed
  obtain ⟨_, stop, closes, parsed⟩ := bind_eq_done.mp parsed
  obtain ⟨fields, place, found, given⟩ := bind_eq_done.mp (show
    (Grammar.results rules >>= fun fields => _) (Blank.skipInLine stop) = _ from parsed)
  cases given
  exact ⟨entries, stop,
    ⟨tag_eq_done.mp opens, entriesRead_of_collect _ reads, symbol_eq_done.mp closes⟩,
    accounts_groupParams entries, fun opened => listRead_of_results opened found⟩

def slotCounts : Reply Signature → Option (Nat × Nat)
  | .done (.mk params results _) _ => some ((fieldSlots params).length, (fieldSlots results).length)
  | _ => none

/-- Names that share a type, and named results. -/
theorem shared_types_kept :
    ∃ params results span rest,
      signature (.forText (.ofText "(a, b int, c string) (n int, err error)"))
          (.ofText "(a, b int, c string) (n int, err error)") = .done (.mk params results span) rest
      ∧ (fieldSlots params).length = 3 ∧ (fieldSlots results).length = 2
      ∧ ∃ entries stop, ListRead (.forText (.ofText "(a, b int, c string) (n int, err error)"))
          ⟨0, "(a, b int, c string) (n int, err error)".toList⟩ entries stop
        ∧ Accounts entries params := by
  have read : slotCounts (signature
      (.forText (.ofText "(a, b int, c string) (n int, err error)"))
      (.ofText "(a, b int, c string) (n int, err error)")) = some (3, 2) := by
    decide +kernel
  cases parsed : signature (.forText (.ofText "(a, b int, c string) (n int, err error)"))
      (.ofText "(a, b int, c string) (n int, err error)") with
  | done found rest =>
    obtain ⟨params, results, span⟩ := found
    rw [parsed] at read
    obtain ⟨three, two⟩ := Prod.mk.inj (Option.some.inj read)
    obtain ⟨entries, stop, listed, accounts, _⟩ := signature_whole_iff_groupable parsed
    exact ⟨params, results, span, rest, rfl, three, two, entries, stop, listed, accounts⟩
  | miss fault =>
    rw [parsed] at read
    cases read
  | halt fault =>
    rw [parsed] at read
    cases read

/-- A bare name behind the last type is read and lost. -/
theorem trailing_name_lost :
    (match fieldEntries (.forText (.ofText "(a int, b)")) ⟨1, "a int, b)".toList⟩ with
      | .done entries rest => some (entries.length, rest)
      | _ => none) = some (2, ⟨9, [')']⟩)
      ∧ (match signature (.forText (.ofText "(a int, b)")) (.ofText "(a int, b)") with
        | .done (.mk params _ _) rest => some ((fieldSlots params).length, rest)
        | _ => none) = some (1, ⟨10, []⟩) := by
  decide +kernel

end Grammar
end Unclosed
