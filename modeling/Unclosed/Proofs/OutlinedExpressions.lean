import Unclosed.Proofs.OutlinedParsers

/-!
Types and expressions in two runs, with faithful outlines.  Rules that track each
other on shorter texts make productions that do, since a production consults its
rules only behind something that it has read.
-/

namespace Unclosed.Grammar

open Grammar.Parser

variable {start place rest first anchor : Cursor} {op : BinaryOp}
  {spellings : List (String × BinaryOp)} {α : Type} {closing : String} {depth so : Nat}
  {before : List Outline} {gauge₀ gauge : Gauge} {tail : List Char}

/-- The second rules track the first ones on all texts below the limit, and the first ones
read faithful outlines there. -/
structure Rules.Follow (tail : List Char) (limit : Nat) (rules rules' : Rules) : Prop where
  newLine : NewLine tail
  bound : limit ≤ rules.bound
  bound' : limit ≤ rules'.bound
  typeHere : Outlined tail limit 1 rules.typeHere rules'.typeHere (Shows fun type => [type.outline])
  binary : ∀ literals least, Outlined tail limit 1 (rules.binary literals least)
    (rules'.binary literals least) (Shows fun expr => [expr.outline])
  unary : ∀ literals, Outlined tail limit 1 (rules.unary literals) (rules'.unary literals)
    (Shows fun expr => [expr.outline])
  element : Outlined tail limit 1 rules.element rules'.element (Shows fun expr => [expr.outline])
  block : Outlined tail limit 1 rules.block rules'.block (Shows fun block => [block.outline])
  statement : Outlined tail limit 1 rules.statement rules'.statement
    (Shows fun stmt => [stmt.outline])
  conditional : Outlined tail limit 1 rules.conditional rules'.conditional
    (Shows fun stmt => [stmt.outline])

/-! ### Looks ahead -/

theorem endsSignature_followedBy (newLine : NewLine tail) (cursor : Cursor) :
    endsSignature (cursor.followedBy tail) = endsSignature cursor := by
  apply newLine.look fun rest => endsSignature ⟨cursor.offset, rest⟩
  · intro more
    rfl
  · intro next more
    simp only [endsSignature]
    split <;> simp_all
  · intro next after more more'
    simp only [endsSignature]
    split <;> simp_all

theorem signOperator?_followedBy (newLine : NewLine tail) (cursor : Cursor) :
    signOperator? (cursor.followedBy tail) = signOperator? cursor := by
  apply newLine.look fun rest => signOperator? ⟨cursor.offset, rest⟩
  · intro more
    rfl
  · intro next more
    simp only [signOperator?]
    split <;> simp_all
  · intro next after more more'
    by_cases address : next = '&'
    · subst address
      by_cases pair : after = '&'
      · subst pair
        rfl
      · simp [signOperator?, pair]
    · simp only [signOperator?]
      split <;> simp_all

def signs : List Char := ['+', '-', '!', '^', '&']

theorem starts_of_signOperator? {op : UnaryOp} (sign : signOperator? start = some op) :
    ∃ next ∈ signs, ∃ more, start.rest = next :: more := by
  unfold signOperator? at sign
  split at sign
  all_goals first
    | next text => exact ⟨_, by decide, _, text⟩
    | cases sign

theorem leads_of_signOperator? {op : UnaryOp} (sign : signOperator? start = some op) :
    ∃ rest, satisfy (fun _ => true) start = .done () rest
      ∧ (∀ tail, satisfy (fun _ => true) (start.followedBy tail)
        = .done () (rest.followedBy tail))
      ∧ ∀ depth, start.Leads 1 (closes depth) rest (closes depth) := by
  obtain ⟨next, signed, more, text⟩ := starts_of_signOperator? sign
  obtain ⟨offset, characters⟩ := start
  cases text
  have plain : ∀ next ∈ signs, next ∉ marks := by decide
  refine ⟨⟨offset + next.utf8Size, more⟩, rfl, fun tail => rfl, fun depth => ⟨?_, ?_⟩⟩
  · exact .cons next offset more
  · exact (closes_plain (plain next signed) depth more).symm

section

variable (newLine : NewLine tail)
include newLine

theorem atLineEnd_followedBy (cursor : Cursor) :
    (cursor.followedBy tail).atLineEnd = cursor.atLineEnd := by
  apply newLine.look fun rest => Cursor.atLineEnd ⟨cursor.offset, rest⟩
  · intro more
    rfl
  · intro next more
    simp only [Cursor.atLineEnd]
    split <;> simp_all
  · intro next after more more'
    simp only [Cursor.atLineEnd]
    split <;> simp_all

/-! ### Operators ahead -/

theorem continuesOperator_followedBy (spelling : String) (op : BinaryOp) (rest : List Char) :
    continuesOperator spelling op (rest ++ tail) = continuesOperator spelling op rest := by
  apply newLine.look (continuesOperator spelling op)
  · intro more
    rfl
  · intro next more
    simp only [continuesOperator]
    split <;> simp_all
  · intro next after more more'
    simp only [continuesOperator]
    split <;> simp_all

theorem binaryOperatorIn_followedBy (cursor : Cursor) (spellings : List (String × BinaryOp))
    (inLine : ∀ entry ∈ spellings, '\n' ∉ entry.1.toList) :
    binaryOperatorIn spellings (cursor.followedBy tail)
      = (binaryOperatorIn spellings cursor).map fun found => (found.1, found.2.followedBy tail) := by
  induction spellings with
  | nil => rfl
  | cons entry others ih =>
    obtain ⟨spelling, op⟩ := entry
    rw [binaryOperatorIn, binaryOperatorIn,
      Cursor.after?_followedBy newLine (inLine _ (List.mem_cons_self ..))]
    cases cursor.after? spelling with
    | none => exact ih fun entry member => inLine entry (.tail _ member)
    | some rest =>
      dsimp only [Option.map_some, Cursor.followedBy]
      rw [continuesOperator_followedBy newLine]
      split <;> rfl

theorem binaryOperator?_followedBy (cursor : Cursor) :
    binaryOperator? (cursor.followedBy tail)
      = (binaryOperator? cursor).map fun found => (found.1, found.2.followedBy tail) := by
  rw [binaryOperator?, binaryOperator?, Blank.skipInLine_followedBy newLine]
  exact binaryOperatorIn_followedBy newLine _ _ (by decide)

end

theorem closes_slash {rest : List Char} (line : ∀ more, rest ≠ '/' :: more)
    (block : ∀ more, rest ≠ '*' :: more) (depth : Nat) :
    closes depth ('/' :: rest) = closes depth rest := by
  cases depth with
  | zero => rfl
  | succ depth => exact escapes_slash line block depth

theorem spelled_of_binaryOperatorIn (found : binaryOperatorIn spellings start = some (op, place)) :
    ∃ spelling, (spelling, op) ∈ spellings ∧ start.after? spelling = some place
      ∧ continuesOperator spelling op place.rest = false := by
  induction spellings with
  | nil => cases found
  | cons entry others ih =>
    obtain ⟨spelling, first⟩ := entry
    rw [binaryOperatorIn] at found
    cases spelled : start.after? spelling with
    | none =>
      rw [spelled] at found
      obtain ⟨spelling, member, rest⟩ := ih found
      exact ⟨spelling, List.mem_cons_of_mem _ member, rest⟩
    | some rest =>
      rw [spelled] at found
      dsimp only at found
      split at found
      · cases found
      · next single =>
        cases found
        exact ⟨spelling, List.mem_cons_self, spelled, by simpa using single⟩

theorem leads_of_binaryOperatorIn (words : ∀ entry ∈ spellings, entry.1 = "/" ∨ entry.1.toList ≠ []
      ∧ ∀ character ∈ entry.1.toList, character ∉ marks)
    (found : binaryOperatorIn spellings start = some (op, rest)) (depth : Nat) :
    start.Leads 1 (closes depth) rest (closes depth) := by
  obtain ⟨spelling, member, after, alone⟩ := spelled_of_binaryOperatorIn found
  rcases words _ member with slash | plain
  · dsimp only at slash
    subst slash
    have text : start.rest = '/' :: rest.rest := Steps.rest_of_single rfl after
    refine ⟨Cursor.reaches_of_after? after, ?_⟩
    rw [text, closes_slash]
    · intro more same
      rw [same] at alone
      cases alone
    · intro more same
      rw [same] at alone
      cases alone
  · exact (Steps.plain plain).leads start rest after

theorem leads_of_binaryOperator? (found : binaryOperator? start = some (op, rest)) (depth : Nat) :
    start.Leads 1 (closes depth) rest (closes depth) := by
  have blank : start.Leads 0 (closes depth) (Blank.skipInLine start) (closes depth) :=
    ⟨Blank.reaches_skipInLine start, Blank.closes_skipInLine depth start⟩
  exact (blank.trans (leads_of_binaryOperatorIn (by decide) found depth)).mono (Nat.le_refl 1)

/-! ### Names and literals -/

section Tokens

variable {tail : List Char} {limit : Nat}

theorem identifier_outlined :
    Outlined tail limit 1 identifier identifier (Shows fun name => [name.outline]) := by
  apply Outlined.of_continues
  intro depth first
  apply Continues.blanks
  apply Continues.here
  intro start led drawn
  apply Continues.bind (recognize_draws (name_plain (depth + 1)))
  rintro ⟨name, span⟩
  dsimp only
  split
  · exact .resume led drawn .fail
  · exact .done ⟨rfl, rfl⟩ (List.Sublist.refl _)

theorem stringLiteral_outlined :
    Outlined tail limit 1 stringLiteral stringLiteral (Shows fun expr => [expr.outline]) := by
  apply Outlined.of_continues
  intro depth first
  apply Continues.blanks
  apply Continues.bind (recognize_draws (stringText_balanced depth))
  rintro ⟨text, span⟩
  exact .done ⟨rfl, rfl⟩ (by simp)

theorem runeLiteral_outlined :
    Outlined tail limit 1 runeLiteral runeLiteral (Shows fun expr => [expr.outline]) := by
  apply Outlined.of_continues
  intro depth first
  apply Continues.bind (recognize_draws (runeText_balanced depth))
  rintro ⟨text, span⟩
  exact .done ⟨rfl, rfl⟩ (by simp)

theorem numberLiteral_outlined :
    Outlined tail limit 1 numberLiteral numberLiteral (Shows fun expr => [expr.outline]) := by
  apply Outlined.of_continues
  intro depth first
  apply Continues.bind (recognize_draws (numberText_plain (depth + 1)))
  rintro ⟨text, span⟩
  exact .done ⟨rfl, rfl⟩ (by simp)

theorem basicLiteral_outlined :
    Outlined tail limit 1 basicLiteral basicLiteral (Shows fun expr => [expr.outline]) :=
  fun depth => orElse_draws (stringLiteral_outlined depth)
    (orElse_draws (runeLiteral_outlined depth) (numberLiteral_outlined depth))

end Tokens

/-! ### Groups of parameters -/

def FieldEntry.outline (entry : FieldEntry) : Outline :=
  .node entry.span none (entry.name.toList.map Ident.outline ++ [entry.type.outline])

def pendingOutline (pending : Ident × Span) : Outline := .node pending.2 none [pending.1.outline]

section Groups

variable {source : String}

theorem pendingOutline_parts (pending : List (Ident × Span)) :
    (pending.map pendingOutline).flatMap Outline.parts
      = (pending.map Prod.fst).map Ident.outline := by
  induction pending with
  | nil => rfl
  | cons waiting later ih =>
    rw [List.map_cons, List.flatMap_cons, ih]
    rfl

theorem groupNamed_row (pending : List (Ident × Span)) (entries : List FieldEntry) (high : Nat) :
    ∀ low, Outline.Row source low
        (pending.map pendingOutline ++ entries.map FieldEntry.outline) high →
      Outline.Row source low (fieldOutlines (groupNamed pending entries)) high := by
  induction entries generalizing pending with
  | nil =>
    intro low row
    exact .nil row.le
  | cons entry later ih =>
    intro low row
    obtain ⟨name, type, span⟩ := entry
    cases name with
    | some name =>
      obtain ⟨start, rest⟩ := Outline.Row.split row
      cases pending with
      | nil => exact start.append (ih [] _ rest)
      | cons earliest waiting =>
        -- The group has the parts of all nodes that it covers.
        have parts := (Outline.Row.between start).unfoldAll
        rw [← List.map_cons, List.flatMap_append, pendingOutline_parts] at parts
        have merged := Outline.Row.merged start parts
        have grouped := merged.append (ih [] _ rest)
        simpa [groupNamed, FieldEntry.outline, pendingOutline]
          using grouped
    | none =>
      cases type with
      | name place ident =>
        have entrySound := row.sound (FieldEntry.outline ⟨none, .name place ident, span⟩) (by simp)
        have unfolded : Outline.Row source span.start ([] ++ [ident.outline] ++ [])
            span.stop := Outline.Row.unfold (.parts entrySound)
        have replaced := row.replace (entrySound.faithful.refill unfolded) rfl
        apply ih (pending ++ [(ident, span)])
        rw [List.map_append, List.append_assoc]
        exact replaced
      | _ =>
        exact ih pending low
          (row.sublist ((List.Sublist.refl _).append (List.sublist_cons_self _ _)))

theorem groupParams_row {entries : List FieldEntry} {low high : Nat}
    (row : Outline.Row source low (entries.map FieldEntry.outline) high) :
    Outline.Row source low (fieldOutlines (groupParams entries)) high := by
  unfold groupParams
  split
  · next unnamed =>
    have same : fieldOutlines (entries.map fun entry => .mk [] entry.type none entry.span)
        = entries.map FieldEntry.outline := by
      rw [fieldOutlines_eq, List.map_map]
      apply List.map_congr_left
      intro entry member
      have absent := Option.isNone_iff_eq_none.mp (List.all_eq_true.mp unnamed entry member)
      simp [FieldEntry.outline, absent]
    rw [same]
    exact row
  · exact groupNamed_row [] entries high low row

end Groups

section Productions

variable {tail : List Char} {limit : Nat} {rules rules' : Rules}
  (follow : rules.Follow tail limit rules') (literals : Bool)
include follow

theorem type_outlined :
    Outlined tail limit 1 rules.type rules'.type (Shows fun type => [type.outline]) := by
  apply Outlined.of_continues
  intro depth first
  apply Continues.blanks
  exact .last (follow.typeHere depth) fun _ => ⟨rfl, rfl⟩

/-! ### Parameter lists -/

theorem namedEntry_outlined :
    Outlined tail limit 1 (namedEntry rules) (namedEntry rules')
      (Shows fun (name, type) => name.toList.map Ident.outline ++ [type.outline]) := by
  apply Outlined.of_continues
  intro depth first
  apply Continues.bind (identifier_outlined depth)
  intro name
  apply Continues.skip (lineBlanks_balanced depth)
  apply Continues.here
  rintro ⟨offset, characters⟩ - -
  have typed : Continues tail limit first (closes (depth + 1)) first 1 (closes (depth + 1))
      [name.outline] (do let type ← rules.typeHere; pure (some name, type))
      (do let type ← rules'.typeHere; pure (some name, type)) (fun _ => 1)
      (fun _ => closes (depth + 1))
      (Shows fun (name, type) => name.toList.map Ident.outline ++ [type.outline]) := by
    apply Continues.bind (follow.typeHere depth)
    intro type
    exact .done ⟨rfl, rfl⟩ (by simp)
  have newLine := follow.newLine
  dsimp only [Cursor.followedBy]
  split
  · exact .failSaying_bind _
  · exact .failSaying_bind _
  · exact typed
  · next single =>
    split
    · next same => cases same
    · next same => cases same
    · next same =>
      obtain ⟨more, pair⟩ := newLine.starts ['.', '.', '.'] same (by decide)
      exact (single more (List.cons.inj pair).2).elim
    · exact .failSaying_bind _
    · next other => exact (other _ rfl).elim
  · next comma closing dots dot =>
    split
    · next same => exact (newLine.absent (by decide) comma same).elim
    · next same => exact (newLine.absent (by decide) closing same).elim
    · next same => exact (newLine.absent (by decide) dot same).elim
    · next same => exact (newLine.absent (by decide) dot same).elim
    · exact typed

theorem unnamedEntry_outlined :
    Outlined tail limit 1 (unnamedEntry rules) (unnamedEntry rules')
      (Shows fun (name, type) => name.toList.map Ident.outline ++ [type.outline]) := by
  apply Outlined.of_continues
  intro depth first
  apply Continues.bind (follow.typeHere depth)
  intro type
  exact .done ⟨rfl, rfl⟩ (by simp)

theorem fieldEntry_outlined :
    Outlined tail limit 1 (fieldEntry rules) (fieldEntry rules')
      (Shows fun entry => [entry.outline]) := by
  apply Outlined.of_continues
  intro depth first
  apply Continues.restart
  intro start _
  apply Continues.bind
    (orElse_draws (namedEntry_outlined follow depth) (unnamedEntry_outlined follow depth))
  rintro ⟨name, type⟩
  have framed (span : Span) : [FieldEntry.outline ⟨name, type, span⟩]
      = [.node span none (name.toList.map Ident.outline ++ [type.outline])] := rfl
  exact .close (fun _ => ⟨rfl, rfl⟩) framed (by simp)

theorem parameterTurn_draws (depth : Nat) :
    Draws tail limit (closes (depth + 1)) (parameterTurn rules) (parameterTurn rules') Turn.least
      (Turn.gauge (closes (depth + 1)) (closes (depth + 1)))
      (Shows (Turn.outlines fun entry => [entry.outline])) := by
  apply Draws.of_continues
  intro first
  apply Continues.blanks
  apply Continues.look (nextIs_tracks (by decide))
  intro closed
  cases closed with
  | true => exact .done ⟨rfl, rfl⟩ (by simp)
  | false =>
    apply Continues.bind (context_draws "parameter" (fieldEntry_outlined follow depth))
    intro entry
    apply Continues.accepts (symbol_tracks (.plain (by decide)))
    · exact .done ⟨rfl, rfl⟩ (by simp)
    · exact .done ⟨rfl, rfl⟩ (by simp)

theorem fieldEntries_outlined :
    Outlined tail limit 0 (fieldEntries rules) (fieldEntries rules')
      (Shows fun entries => fieldOutlines (groupParams entries)) := by
  intro depth
  have ungrouped := collect_draws (parameterTurn_draws follow depth) follow.bound follow.bound'
  refine ⟨ungrouped.tracks, fun start entries rest short parsed => ?_⟩
  obtain ⟨_, rfl, drawn⟩ := ungrouped.draws start entries rest short parsed
  refine ⟨_, rfl, drawn.reaches, fun inSource => groupParams_row ?_⟩
  rw [List.map_eq_flatMap]
  exact drawn.row inSource

theorem results_outlined :
    Outlined tail limit 0 (results rules) (results rules') (Shows fieldOutlines) := by
  apply Outlined.of_continues
  intro depth first
  apply Continues.here
  intro place _ _
  rw [endsSignature_followedBy follow.newLine]
  split
  · exact .done ⟨rfl, rfl⟩ (by simp)
  · apply Continues.accept (.opening rfl rfl)
    · apply Continues.bind (fieldEntries_outlined follow (depth + 1))
      intro entries
      apply Continues.symbol (.closing rfl rfl)
      exact .done ⟨rfl, rfl⟩ (by simp)
    · apply Continues.probe (follow.typeHere depth)
      · rintro type _ rfl
        -- The field of an unnamed result has the range of its type.
        apply Continues.redraw fun stop drawn => drawn.wrapped
        exact .done ⟨rfl, rfl⟩ (by simp [TypeExpr.outline_span])
      · exact .done ⟨rfl, rfl⟩ (by simp)

theorem signature_outlined :
    Outlined tail (limit + 1) 1 (signature rules) (signature rules')
      (Shows fun signature => [signature.outline]) := by
  apply Outlined.of_start
  intro depth first start
  apply Continues.skip (tag_tracks (.opening rfl rfl))
  apply Continues.consult rfl (fieldEntries_outlined follow (depth + 1))
  intro entries
  apply Continues.symbol (.closing rfl rfl)
  apply Continues.skip (lineBlanks_balanced depth)
  apply Continues.consult rfl (results_outlined follow depth)
  intro fields
  exact .close (fun _ => ⟨rfl, rfl⟩) (fun _ => rfl) (by simp)

/-! ### Fields and interface elements -/

theorem names_outlined :
    Outlined tail (limit + 1) 1 (separated rules.bound (symbol ",") identifier)
      (separated rules'.bound (symbol ",") identifier)
      (Shows fun names => names.map Ident.outline) := by
  simpa only [List.map_eq_flatMap] using
    separated_outlined (fun _ => symbol_tracks (.plain (by decide))) identifier_outlined
      follow.bound follow.bound'

theorem namedField_outlined :
    Outlined tail (limit + 1) 1 (namedField rules) (namedField rules')
      (Shows fun (names, type) => names.map Ident.outline ++ [type.outline]) := by
  apply Outlined.of_continues
  intro depth first
  apply Continues.bind (names_outlined follow depth)
  intro names
  apply Continues.skip (lineBlanks_balanced depth)
  apply Continues.consult rfl (follow.typeHere depth)
  intro type
  exact .done ⟨rfl, rfl⟩ (by simp)

theorem embeddedField_outlined :
    Outlined tail limit 1 (embeddedField rules) (embeddedField rules')
      (Shows fun (names, type) => names.map Ident.outline ++ [type.outline]) := by
  apply Outlined.of_continues
  intro depth first
  apply Continues.bind (follow.typeHere depth)
  intro type
  exact .done ⟨rfl, rfl⟩ (by simp)

omit follow in
theorem fieldTag_balanced (newLine : NewLine tail) : BalancedToken tail limit 0 fieldTag := by
  apply Balanced.of_from
  intro depth first short led
  have tagged (next : Expr → Parser (Option String))
      (answers : ∀ expr, ∃ text, next expr = pure text) :
      TracksFrom tail first (closes (depth + 1)) first (stringLiteral >>= next)
        (stringLiteral >>= next) (fun _ => 0) fun _ => closes (depth + 1) := by
    apply TracksFrom.bind (stringLiteral_outlined depth).tracks led (by omega)
    intro literal rest led
    obtain ⟨text, answer⟩ := answers literal
    rw [answer]
    exact .pure led (by omega) rfl
  apply TracksFrom.here
  obtain ⟨offset, characters⟩ := first
  dsimp only [Cursor.followedBy] at led tagged ⊢
  split
  · exact tagged _ fun expr => by split <;> exact ⟨_, rfl⟩
  · exact tagged _ fun expr => by split <;> exact ⟨_, rfl⟩
  · next quote backquote =>
    split
    · next same => exact (newLine.absent (by decide) quote same).elim
    · next same => exact (newLine.absent (by decide) backquote same).elim
    · exact .pure led (by omega) rfl

theorem structField_outlined :
    Outlined tail limit 1 (structField rules) (structField rules')
      (Shows fun field => [field.outline]) := by
  apply Outlined.of_start
  intro depth first start
  apply Continues.bind (orElse_draws ((namedField_outlined follow depth).mono (Nat.le_succ _))
    (embeddedField_outlined follow depth))
  rintro ⟨names, type⟩
  apply Continues.skip (lineBlanks_balanced depth)
  apply Continues.look (fieldTag_balanced follow.newLine depth)
  intro tag
  exact .close (fun _ => ⟨rfl, rfl⟩) (fun _ => rfl) (by simp)

theorem interfaceMethod_outlined :
    Outlined tail (limit + 1) 1 (interfaceMethod rules) (interfaceMethod rules')
      (Shows fun element => interfaceOutlines [element]) := by
  apply Outlined.of_continues
  intro depth first
  apply Continues.bind (identifier_outlined depth)
  intro name
  apply Continues.look (nextIs_tracks (by decide))
  intro opened
  cases opened with
  | true =>
    apply Continues.bind (signature_outlined follow depth)
    intro signature
    exact .done ⟨rfl, rfl⟩ (by simp)
  | false => exact .failSaying _

theorem interfaceElement_outlined :
    Outlined tail limit 1 (interfaceElement rules) (interfaceElement rules')
      (Shows fun element => interfaceOutlines [element]) := by
  intro depth
  apply orElse_draws ((interfaceMethod_outlined follow depth).mono (Nat.le_succ _))
  apply Draws.of_continues
  intro first
  apply Continues.bind (type_outlined follow depth)
  intro type
  exact .done ⟨rfl, rfl⟩ (by simp)

omit follow in
theorem itemTurn_draws {item item' : Parser α} {read : α → List Outline}
    (steps : Steps closing (closes (depth + 1)) (closes depth))
    (outlined : Outlined tail limit 1 item item' (Shows read)) :
    Draws tail limit (closes (depth + 1)) (itemTurn closing item) (itemTurn closing item')
      Turn.least (Turn.gauge (closes (depth + 1)) (closes depth))
      (Shows (Turn.outlines read)) := by
  apply Draws.of_continues
  intro first
  apply Continues.blanks
  apply Continues.accept steps
  · exact .done ⟨rfl, rfl⟩ (by simp)
  · apply Continues.bind (outlined depth)
    intro next
    apply Continues.skip (statementEnd_balanced depth)
    exact .done ⟨rfl, rfl⟩ (by simp)

theorem itemsUntil_draws {item item' : Parser α} {read : α → List Outline}
    (steps : Steps closing (closes (depth + 1)) (closes depth))
    (outlined : Outlined tail limit 1 item item' (Shows read)) :
    Draws tail limit (closes (depth + 1)) (itemsUntil rules closing item)
      (itemsUntil rules' closing item') (fun _ => 0) (fun _ => closes depth)
      (Shows fun items => items.flatMap read) :=
  collect_draws (itemTurn_draws steps outlined) follow.bound follow.bound'

/-! ### Types -/

theorem elem_continues {build : TypeExpr → Span → TypeExpr} (began : Nat.ble 1 so = true)
    (framed : ∀ elem span,
      (build elem span).outline = .node span none (before ++ [elem.outline])) :
    Continues tail (limit + 1) first (closes (depth + 1)) anchor so (closes (depth + 1)) before
      (rules.type >>= fun elem => pure (build elem)) (rules'.type >>= fun elem => pure (build elem))
      (fun _ => 1) (fun _ => closes (depth + 1)) (Frames TypeExpr.outline) := by
  refine .weaken ?_ began
  apply Continues.consult rfl (type_outlined follow depth)
  intro elem
  exact .pure ⟨rfl, rfl⟩ (framed elem) (List.Sublist.refl _)

theorem pointerType_outlined :
    Outlined tail (limit + 1) 1 (pointerType rules) (pointerType rules')
      (Frames TypeExpr.outline) := by
  apply Outlined.of_continues
  intro depth first
  apply Continues.skip (tag_tracks (.plain (by decide)))
  exact elem_continues follow rfl fun _ _ => rfl

theorem arrayOrSliceType_outlined :
    Outlined tail (limit + 1) 1 (arrayOrSliceType rules) (arrayOrSliceType rules')
      (Frames TypeExpr.outline) := by
  apply Outlined.of_continues
  intro depth first
  apply Continues.skip (tag_tracks (.opening rfl rfl))
  apply Continues.accepts (symbol_tracks (.closing rfl rfl))
  · exact elem_continues follow rfl fun _ _ => rfl
  · apply Continues.accepts (symbol_tracks (.plain (by decide)))
    · apply Continues.symbol (.closing rfl rfl)
      exact elem_continues follow rfl fun _ _ => rfl
    · apply Continues.consult rfl (follow.binary true 1 (depth + 1))
      intro length
      apply Continues.symbol (.closing rfl rfl)
      exact elem_continues follow rfl fun _ _ => rfl

theorem mapType_outlined :
    Outlined tail (limit + 1) 1 (mapType rules) (mapType rules') (Frames TypeExpr.outline) := by
  apply Outlined.of_continues
  intro depth first
  apply Continues.skip (keyword_balanced (by decide) depth)
  apply Continues.symbol (.opening rfl rfl)
  apply Continues.consult rfl (type_outlined follow (depth + 1))
  intro key
  apply Continues.symbol (.closing rfl rfl)
  exact elem_continues follow rfl fun _ _ => rfl

theorem chanType_outlined :
    Outlined tail (limit + 1) 1 (chanType rules) (chanType rules') (Frames TypeExpr.outline) := by
  apply Outlined.of_continues
  intro depth first
  apply Continues.accept (.plain (by decide))
  · apply Continues.skip (keyword_balanced (by decide) depth)
    exact elem_continues follow rfl fun _ _ => rfl
  · apply Continues.skip (keyword_balanced (by decide) depth)
    apply Continues.accepts (symbol_tracks (.plain (by decide)))
    · exact elem_continues follow rfl fun _ _ => rfl
    · exact elem_continues follow rfl fun _ _ => rfl

theorem funcType_outlined :
    Outlined tail (limit + 1) 1 (funcType rules) (funcType rules') (Frames TypeExpr.outline) := by
  apply Outlined.of_continues
  intro depth first
  apply Continues.skip (keyword_balanced (by decide) depth)
  apply Continues.bind (signature_outlined follow depth)
  intro signature
  exact .pure ⟨rfl, rfl⟩ (fun _ => rfl) (by simp)

theorem structType_outlined :
    Outlined tail (limit + 1) 1 (structType rules) (structType rules')
      (Frames TypeExpr.outline) := by
  apply Outlined.of_continues
  intro depth first
  apply Continues.skip (keyword_balanced (by decide) depth)
  apply Continues.symbol (.opening rfl rfl)
  apply Continues.consult rfl (itemsUntil_draws follow (.closing rfl rfl) fun depth =>
    context_draws "struct field" (structField_outlined follow depth))
  intro fields
  exact .pure ⟨rfl, rfl⟩ (fun _ => rfl) (by simp [fieldOutlines_eq, List.map_eq_flatMap])

omit follow in
theorem interfaceOutlines_eq (elements : List InterfaceElement) :
    interfaceOutlines elements = elements.flatMap fun element => interfaceOutlines [element] := by
  induction elements with
  | nil => rfl
  | cons element later ih =>
    cases element <;> simp [ih]

theorem interfaceType_outlined :
    Outlined tail (limit + 1) 1 (interfaceType rules) (interfaceType rules')
      (Frames TypeExpr.outline) := by
  apply Outlined.of_continues
  intro depth first
  apply Continues.skip (keyword_balanced (by decide) depth)
  apply Continues.symbol (.opening rfl rfl)
  apply Continues.consult rfl (itemsUntil_draws follow (.closing rfl rfl) fun depth =>
    context_draws "interface element" (interfaceElement_outlined follow depth))
  intro elements
  exact .pure ⟨rfl, rfl⟩ (fun _ => rfl) (by rw [interfaceOutlines_eq]; simp)

omit follow in
theorem withSpan_outline (span : Span) (type : TypeExpr) :
    (type.withSpan span).outline = .node span none type.outline.parts := by
  cases type <;> rfl

theorem parenType_outlined :
    Outlined tail (limit + 1) 1 (parenType rules) (parenType rules') (Frames TypeExpr.outline) := by
  apply Outlined.of_continues
  intro depth first
  apply Continues.skip (tag_tracks (.opening rfl rfl))
  apply Continues.consult rfl (type_outlined follow (depth + 1))
  intro inner
  apply Continues.symbol (.closing rfl rfl)
  apply Continues.redraw fun stop drawn => drawn.unfold
  exact .pure ⟨rfl, rfl⟩ (fun span => withSpan_outline span inner) (by simp)

theorem ellipsisType_outlined :
    Outlined tail (limit + 1) 1 (ellipsisType rules) (ellipsisType rules')
      (Frames TypeExpr.outline) := by
  apply Outlined.of_continues
  intro depth first
  apply Continues.skip (tag_tracks (.plain (by decide)))
  exact elem_continues follow rfl fun _ _ => rfl

omit follow in
theorem namedType_outlined :
    Outlined tail limit 1 namedType namedType (Frames TypeExpr.outline) := by
  apply Outlined.of_continues
  intro depth first
  apply Continues.bind (identifier_outlined depth)
  intro package
  apply Continues.accepts (lineSymbol_tracks (.plain (by decide)))
  · apply Continues.bind (identifier_outlined depth)
    intro name
    exact .pure ⟨rfl, rfl⟩ (fun _ => rfl) (by simp)
  · exact .pure ⟨rfl, rfl⟩ (fun _ => rfl) (by simp)

theorem typeHere_outlined :
    Outlined tail (limit + 1) 1 (typeHere rules) (typeHere rules')
      (Shows fun type => [type.outline]) := by
  apply Outlined.of_continues
  intro depth first
  apply Continues.restart
  intro start _
  apply Continues.call (orElse_draws (pointerType_outlined follow depth) <|
    orElse_draws (arrayOrSliceType_outlined follow depth) <|
    orElse_draws (mapType_outlined follow depth) <|
    orElse_draws (chanType_outlined follow depth) <|
    orElse_draws (funcType_outlined follow depth) <|
    orElse_draws (structType_outlined follow depth) <|
    orElse_draws (interfaceType_outlined follow depth) <|
    orElse_draws (parenType_outlined follow depth) <|
    orElse_draws (ellipsisType_outlined follow depth) (namedType_outlined depth))
  intro build parts frames
  exact .close (fun _ => ⟨rfl, rfl⟩) (fun span => by rw [frames]) (List.Sublist.refl parts)

theorem typeExpr_outlined :
    Outlined tail (limit + 1) 1 (typeExpr rules) (typeExpr rules')
      (Shows fun type => [type.outline]) := by
  apply Outlined.of_continues
  intro depth first
  apply Continues.blanks
  exact .last (typeHere_outlined follow depth) fun _ => ⟨rfl, rfl⟩

/-! ### Arguments, indexes and composite literals -/

omit follow in
/-- Two expressions with a node over both of them. -/
theorem Parser.Continues.merging {β : Type} {left right whole : Expr} {parser parser' : Parser β}
    {least : β → Nat} {after : β → Gauge} {shows : β → List Outline → Prop} (outline : whole.outline
      = .node (left.span.merge right.span) none [left.outline, right.outline])
    (later : Continues tail limit first gauge₀ anchor so gauge [whole.outline] parser parser' least
      after shows) :
    Continues tail limit first gauge₀ anchor so gauge ([left.outline] ++ [right.outline]) parser
      parser' least after shows := by
  apply Continues.redraw fun _ drawn => Drawn.merged drawn
  rw [Expr.outline_span, Expr.outline_span, ← outline]
  exact later

def turnEnd {α : Type} (closing : String) (item : α) : Parser (Turn α) := do
  blanks
  if ← accept "," then
    pure (.more item)
  else
    tag closing
    pure (.last item)

omit follow in
theorem turnEnd_continues (closing : String) (item : α) {read : α → List Outline}
    (began : Nat.ble 1 so = true) (steps : Steps closing (closes (depth + 1)) (closes depth))
    (shown : before = read item) :
    Continues tail limit first (closes (depth + 1)) first so (closes (depth + 1)) before
      (turnEnd closing item) (turnEnd closing item) Turn.least
      (Turn.gauge (closes (depth + 1)) (closes depth)) (Shows (Turn.outlines read)) := by
  refine .weaken ?_ began
  apply Continues.blanks
  apply Continues.accept (.plain (by decide))
  · exact .done ⟨rfl, rfl⟩ (by simp [shown])
  · apply Continues.skip (tag_tracks steps)
    exact .done ⟨rfl, rfl⟩ (by simp [shown])

theorem argumentTurn_draws (depth : Nat) :
    Draws tail limit (closes (depth + 1)) (argumentTurn rules) (argumentTurn rules')
      Turn.least (Turn.gauge (closes (depth + 1)) (closes depth))
      (Shows (Turn.outlines fun argument => [argument.1.outline])) := by
  apply Draws.of_continues
  intro first
  apply Continues.blanks
  apply Continues.accept (.closing rfl rfl)
  · exact .done ⟨rfl, rfl⟩ (by simp)
  apply Continues.bind (follow.binary true 1 depth)
  intro argument
  apply Continues.blanks
  apply Continues.accept (.plain (by decide))
  · exact turnEnd_continues ")" (argument, true) rfl (.closing rfl rfl) rfl
  · exact turnEnd_continues ")" (argument, false) rfl (.closing rfl rfl) rfl

theorem argumentList_draws (depth : Nat) :
    Draws tail limit (closes (depth + 1)) (argumentList rules) (argumentList rules')
      (fun _ => 0) (fun _ => closes depth)
      (Shows fun arguments => exprOutlines (arguments.map Prod.fst)) := by
  apply Draws.shown (collect_draws (argumentTurn_draws follow depth) follow.bound follow.bound')
  intro arguments
  rw [exprOutlines_eq, List.map_map, List.map_eq_flatMap]
  rfl

theorem sliceBound_outlined :
    Outlined tail limit 0 (sliceBound rules) (sliceBound rules') (Shows optionalOutlines) := by
  apply Outlined.of_continues
  intro depth first
  apply Continues.blanks
  apply Continues.here
  rintro ⟨offset, characters⟩ - -
  have bounded : Continues tail limit first (closes (depth + 1)) first 0 (closes (depth + 1)) []
      (do let bound ← rules.expression; pure (some bound))
      (do let bound ← rules'.expression; pure (some bound))
      (fun _ => 0) (fun _ => closes (depth + 1)) (Shows optionalOutlines) := by
    apply Continues.bind (follow.binary true 1 depth)
    intro bound
    exact .done ⟨rfl, rfl⟩ (by simp)
  have newLine := follow.newLine
  dsimp only [Cursor.followedBy]
  split
  · exact .done ⟨rfl, rfl⟩ (by simp)
  · exact .done ⟨rfl, rfl⟩ (by simp)
  · next bracket colon =>
    split
    · next same => exact (newLine.absent (by decide) bracket same).elim
    · next same => exact (newLine.absent (by decide) colon same).elim
    · exact bounded

def Applied (operand : Expr) (build : Span → Expr) (nodes : List Outline) : Prop :=
  Frames Expr.outline build (operand.outline :: nodes)

theorem indexOrSlice_draws (operand : Expr) (depth : Nat) :
    Draws tail limit (closes (depth + 1)) (indexOrSlice rules operand)
      (indexOrSlice rules' operand) (fun _ => 0) (fun _ => closes depth) (Applied operand) := by
  have present : Outlined tail limit 0 (some <$> rules.expression) (some <$> rules'.expression)
      (Shows optionalOutlines) :=
    present_outlined (by simp) (follow.binary true 1)
  apply Draws.of_continues
  intro first
  apply Continues.blanks
  apply Continues.look (nextIs_tracks (by decide))
  intro colon
  apply Continues.choose (absent_outlined rfl depth) (present depth)
  intro low
  apply Continues.blanks
  apply Continues.look (nextIs_tracks (by decide))
  intro closed
  cases closed with
  | true =>
    cases low with
    | none => exact .failSaying _
    | some index =>
      apply Continues.skip (tag_tracks (.closing rfl rfl))
      exact .pure ⟨rfl, rfl⟩ (fun _ => rfl) (by simp)
  | false =>
    apply Continues.skip (tag_tracks (.plain (by decide)))
    apply Continues.bind (sliceBound_outlined follow depth)
    intro high
    apply Continues.acceptsThen (symbol_tracks (.plain (by decide)))
      (sliceBound_outlined follow depth) (absent_outlined rfl depth)
    intro max
    apply Continues.symbol (.closing rfl rfl)
    exact .pure ⟨rfl, rfl⟩ (fun _ => rfl) (by simp)

theorem elementTurn_draws (depth : Nat) :
    Draws tail limit (closes (depth + 1)) (elementTurn rules) (elementTurn rules')
      Turn.least (Turn.gauge (closes (depth + 1)) (closes depth))
      (Shows (Turn.outlines fun element => [element.outline])) := by
  apply Draws.of_continues
  intro first
  apply Continues.blanks
  apply Continues.accept (.closing rfl rfl)
  · exact .done ⟨rfl, rfl⟩ (by simp)
  apply Continues.bind (follow.element depth)
  intro key
  apply Continues.accepts (symbol_tracks (.plain (by decide)))
  · apply Continues.bind (follow.element depth)
    intro value
    apply Continues.given
    exact .merging rfl
      (turnEnd_continues "\x7d" (Expr.keyValue _ key value) rfl (.closing rfl rfl) rfl)
  · exact .given (turnEnd_continues "\x7d" key rfl (.closing rfl rfl) rfl)

theorem literalValue_outlined :
    Outlined tail (limit + 1) 1 (literalValue rules) (literalValue rules')
      (Shows exprOutlines) := by
  have shown (elements : List Expr) :
      elements.flatMap (fun element => [element.outline]) = exprOutlines elements := by
    rw [exprOutlines_eq, List.map_eq_flatMap]
  apply Outlined.of_continues
  intro depth first
  apply Continues.skip (tag_tracks (.opening rfl rfl))
  have elements := collect_draws (elementTurn_draws follow (depth + 1)) follow.bound follow.bound'
  exact .lastConsult rfl (elements.shown shown) fun _ => ⟨rfl, rfl⟩

/-! ### Operands -/

theorem functionLiteral_outlined :
    Outlined tail (limit + 1) 1 (functionLiteral rules) (functionLiteral rules')
      (Shows fun expr => [expr.outline]) := by
  apply Outlined.of_continues
  intro depth first
  apply Continues.restart
  intro start _
  apply Continues.skip (keyword_balanced (by decide) depth)
  apply Continues.bind (signature_outlined follow depth)
  intro signature
  apply Continues.here
  intro afterSignature led drawn
  apply Continues.skip (lineBlanks_balanced depth)
  apply Continues.look (nextIs_tracks (by decide))
  intro opened
  cases opened with
  | true =>
    apply Continues.consult rfl (context_draws "function literal body" (follow.block depth))
    intro body
    exact .close (fun _ => ⟨rfl, rfl⟩) (fun _ => rfl) (by simp)
  | false =>
    apply Continues.resume led drawn
    exact .close (fun _ => ⟨rfl, rfl⟩) (fun _ => rfl) (by simp)

omit follow in
theorem either_tracks {look later : Parser Bool}
    (tracks : Tracks tail limit gauge look look (fun _ => 0) fun _ => gauge)
    (tracksLater : Tracks tail limit gauge later later (fun _ => 0) fun _ => gauge) :
    Tracks tail limit gauge (do if ← look then pure true else later)
      (do if ← look then pure true else later) (fun _ => 0) fun _ => gauge := by
  intro first short
  apply TracksFrom.bind tracks (.refl first gauge) (by omega)
  intro answer rest led
  cases answer with
  | true => exact .pure led (by omega) rfl
  | false => exact .call tracksLater led (by omega) (fun _ => by omega) fun _ => rfl

omit follow in
theorem seesTypeLiteral_balanced : BalancedToken tail limit 0 seesTypeLiteral :=
  fun depth => either_tracks (nextIs_tracks (by decide)) <|
    either_tracks (sees_tracks (keyword_balanced (by decide) depth)) <|
    either_tracks (sees_tracks (keyword_balanced (by decide) depth)) <|
    either_tracks (sees_tracks (keyword_balanced (by decide) depth)) <|
    either_tracks (sees_tracks (keyword_balanced (by decide) depth)) (nextIs_tracks (by decide))

omit follow in
/-- A miss is reported at the place where the expression was expected. -/
theorem expectingExpression_continues {parser parser' : Parser α} {shows : α → List Outline → Prop}
    (outlined : Outlined tail limit 1 parser parser' shows) (placed : first.Reaches 0 place) :
    Continues tail limit first gauge₀ anchor so (closes (depth + 1)) []
      (expectingExpression place parser) (expectingExpression (place.followedBy tail) parser')
      (fun _ => 1) (fun _ => closes (depth + 1)) shows := by
  intro start short led drawn
  have length := led.reaches.length_le
  obtain ⟨settled, alike⟩ := (outlined depth).tracks start (by omega)
  refine ⟨⟨?_, fun enclosed => ?_⟩, fun value rest parsed => ?_⟩
  · rw [expectingExpression]
    cases reply : parser start with
    | done value rest =>
      rw [reply] at settled
      exact (led.trans settled).mono (by omega)
    | miss fault => exact .saying _ placed
    | halt fault =>
      rw [reply] at settled
      exact settled.back led.reaches
  · have alike := alike (enclosed.of_leads led)
    rw [expectingExpression, expectingExpression]
    revert alike
    generalize parser start = reply
    generalize parser' (start.followedBy tail) = reply'
    intro alike
    cases alike with
    | done value rest => exact .done value rest
    | halt same => exact .halt same
    | miss same =>
      apply Reply.Matches.miss
      rintro rfl
      rw [Cursor.followedBy_nil]
  · unfold expectingExpression at parsed
    split at parsed
    · cases parsed
    · obtain ⟨nodes, shown, drawnNext⟩ :=
        (outlined depth).draws start value rest (by omega) parsed
      exact ⟨nodes, shown, drawnNext.back drawn.reaches⟩

theorem operand_outlined :
    Outlined tail (limit + 1) 1 (operand rules) (operand rules')
      (Shows fun expr => [expr.outline]) := by
  have named : Outlined tail (limit + 1) 1 (Expr.ident <$> identifier) (Expr.ident <$> identifier)
      (Shows fun expr => [expr.outline]) :=
    fun depth => map_draws (identifier_outlined depth) fun _ _ shown => shown
  apply Outlined.of_continues
  intro depth first
  apply Continues.blanks
  apply Continues.restart
  intro start led
  apply Continues.accept (.opening rfl rfl)
  · apply Continues.consult rfl (follow.binary true 1 (depth + 1))
    intro inner
    apply Continues.symbol (.closing rfl rfl)
    exact .close (fun _ => ⟨rfl, rfl⟩) (fun _ => rfl) (by simp)
  apply Continues.look (sees_tracks (keyword_balanced (by decide) depth))
  intro func
  cases func with
  | true => exact .last (functionLiteral_outlined follow depth) fun _ => ⟨rfl, rfl⟩
  | false =>
    apply Continues.look (seesTypeLiteral_balanced depth)
    intro literal
    cases literal with
    | true =>
      apply Continues.bind (typeHere_outlined follow depth)
      intro type
      exact .done ⟨rfl, rfl⟩ (by simp)
    | false =>
      exact expectingExpression_continues
        (fun depth => orElse_draws (basicLiteral_outlined depth) (named depth)) led.reaches

/-! ### Operations after an operand -/

/-- A type assertion closes the parenthesis that it opens. -/
theorem selection_outlined (expr : Expr) :
    Outlined tail (limit + 1) 1 (selection rules expr) (selection rules' expr) (Applied expr) := by
  apply Outlined.of_continues
  intro depth first
  apply Continues.blanks
  apply Continues.accept (.opening rfl rfl)
  · apply Continues.accepts (keyword_balanced (by decide) (depth + 1))
    · apply Continues.symbol (.closing rfl rfl)
      exact .pure ⟨rfl, rfl⟩ (fun _ => rfl) (by simp)
    · apply Continues.consult rfl (type_outlined follow (depth + 1))
      intro type
      apply Continues.symbol (.closing rfl rfl)
      exact .pure ⟨rfl, rfl⟩ (fun _ => rfl) (by simp)
  · apply Continues.bind (identifier_outlined depth)
    intro name
    exact .pure ⟨rfl, rfl⟩ (fun _ => rfl) (by simp)

/-- An operation reads something, and nothing is read where there is none. -/
theorem operation_draws (expr : Expr) (depth : Nat) :
    Draws tail (limit + 1) (closes (depth + 1)) (operation rules literals expr)
      (operation rules' literals expr) whenSome (fun _ => closes (depth + 1))
      (WhenPresent (Applied expr)) := by
  apply Draws.of_continues
  intro first
  apply Continues.here
  intro before led drawn
  apply Continues.skip (lineBlanks_balanced depth)
  apply Continues.here
  rintro ⟨offset, characters⟩ - -
  have nothing : Continues tail (limit + 1) first (closes (depth + 1)) first 0 (closes (depth + 1))
      [] (do resume before; pure none) (do resume (before.followedBy tail); pure none)
      (whenSome : Option (Span → Expr) → Nat) (fun _ => closes (depth + 1))
      (WhenPresent (Applied expr)) :=
    .resume led drawn (.pure ⟨rfl, rfl⟩ rfl (List.Sublist.refl _))
  have newLine := follow.newLine
  dsimp only [Cursor.followedBy]
  split
  · exact nothing
  · next single =>
    split
    · next same =>
      obtain ⟨more, pair⟩ := newLine.starts ['.', '.'] same (by decide)
      exact (single more (List.cons.inj pair).2).elim
    · apply Continues.skip (tag_tracks (.plain (by decide)))
      exact .last (map_draws (selection_outlined follow expr depth) fun _ _ shown => shown)
        fun found => by cases found <;> exact ⟨rfl, rfl⟩
    · next same => cases same
    · next same => cases same
    · next same => cases same
    · next _ other _ _ _ => exact (other _ rfl).elim
  · apply Continues.skip (tag_tracks (.opening rfl rfl))
    apply Continues.consult rfl (context_draws _ (argumentList_draws follow (depth + 1)))
    intro arguments
    exact .pure ⟨rfl, rfl⟩ (fun _ => rfl) (by simp)
  · apply Continues.skip (tag_tracks (.opening rfl rfl))
    exact .lastConsult rfl
      (map_draws (indexOrSlice_draws follow expr (depth + 1)) fun _ _ shown => shown)
      fun found => by cases found <;> exact ⟨rfl, rfl⟩
  · dsimp only [List.cons_append]
    split
    · apply Continues.bind (context_draws _ (literalValue_outlined follow depth))
      intro elements
      exact .pure ⟨rfl, rfl⟩ (fun _ => rfl) (by simp)
    · exact nothing
  · next dots dot parenthesis bracket brace =>
    split
    · next same => exact (newLine.absent (by decide) dot same).elim
    · next same => exact (newLine.absent (by decide) dot same).elim
    · next same => exact (newLine.absent (by decide) parenthesis same).elim
    · next same => exact (newLine.absent (by decide) bracket same).elim
    · next same => exact (newLine.absent (by decide) brace same).elim
    · exact nothing

theorem operationStep_tracks (start : Cursor) (expr : Expr) (depth : Nat) :
    Tracks tail (limit + 1) (closes (depth + 1)) (operationStep rules literals start expr)
      (operationStep rules' literals start expr) whenSome fun _ => closes (depth + 1) := by
  intro first short
  apply TracksFrom.bind (operation_draws follow literals expr depth).tracks (.refl first _)
    (by omega)
  intro found rest led
  cases found with
  | none => exact .pure led (by simp) rfl
  | some build =>
    apply TracksFrom.span
    intro span
    exact .pure led (by simp) rfl

theorem postfixExpr_outlined :
    Outlined tail (limit + 1) 1 (postfixExpr rules literals) (postfixExpr rules' literals)
      (Shows fun expr => [expr.outline]) := by
  apply Outlined.of_continues
  intro depth first
  apply Continues.restart
  intro start _
  apply Continues.bind (operand_outlined follow depth)
  intro operand
  have step (expr : Expr) : Tracks tail limit (closes (depth + 1))
      (operationStep rules literals start expr)
      (operationStep rules' literals (start.followedBy tail) expr) whenSome
      fun _ => closes (depth + 1) :=
    (operationStep_tracks follow literals start expr depth).mono (Nat.le_succ _)
  refine Continues.iterate rfl step follow.bound follow.bound' rfl ?_
  intro expr place found rest short drawn parsed
  obtain ⟨operated, middle, read, finished⟩ := bind_eq_done.mp parsed
  obtain ⟨nodes, shown, drawnNext⟩ :=
    (operation_draws follow literals expr depth).draws place operated middle (by omega) read
  cases operated with
  | none =>
    obtain ⟨rfl, rfl⟩ := pure_eq_done.mp finished
    exact drawn.extend drawnNext.reaches
  | some build =>
    obtain ⟨span, _, ⟨⟩, finished⟩ := bind_eq_done.mp finished
    obtain ⟨rfl, rfl⟩ := pure_eq_done.mp finished
    dsimp only [Option.elim_some]
    rw [shown]
    exact (drawn.append drawnNext).node

/-! ### Operators -/

/-- The range of an operation ends with its operand. -/
theorem operatorOperand_continues {build : Span → Expr → Expr} (began : Nat.ble 1 so = true)
    (frames : ∀ operand, Frames Expr.outline (fun span => build span operand) [operand.outline]) :
    Continues tail (limit + 1) first gauge₀ start so (closes (depth + 1)) []
      (operatorOperand rules literals start build)
      (operatorOperand rules' literals (start.followedBy tail) build) (fun _ => 1)
      (fun _ => closes (depth + 1)) (Shows fun expr => [expr.outline]) := by
  apply Continues.consult began (follow.unary literals depth)
  intro operand
  apply Continues.redraw fun _ drawn => Drawn.upTo drawn
  rw [Expr.outline_span, ← frames operand]
  exact .done ⟨by simp, rfl⟩ (List.Sublist.refl _)

omit follow in
theorem seesReceive_apply (start : Cursor) : ∃ answer, seesReceive start = .done answer start := by
  rw [seesReceive]
  cases start.after? "<-" with
  | none => exact ⟨_, rfl⟩
  | some rest => exact ⟨_, rfl⟩

omit follow in
theorem seesReceive_enclosed {answer : Bool} (enclosed : start.Enclosed tail (closes (depth + 1)))
    (looked : seesReceive start = .done answer start) :
    seesReceive (start.followedBy tail) = .done answer (start.followedBy tail) := by
  have steps : Steps "<-" (closes (depth + 1)) (closes (depth + 1)) := .plain (by decide)
  rw [seesReceive] at looked
  rw [seesReceive, Cursor.after?_followedBy enclosed.1 steps.inLine]
  cases found : start.after? "<-" with
  | none =>
    rw [found] at looked
    cases looked
    rfl
  | some rest =>
    rw [found] at looked
    cases looked
    have leads := steps.leads start rest found
    have chan : BalancedToken tail (rest.rest.length + 1) 1 (keyword "chan") :=
      keyword_balanced (by decide)
    have alike := (chan depth rest (Nat.lt_succ_self _)).alike (enclosed.of_leads leads)
    dsimp only [Option.map_some]
    rw [alike.isDone]

theorem unaryExpr_outlined :
    Outlined tail (limit + 1) 1 (unaryExpr rules literals) (unaryExpr rules' literals)
      (Shows fun expr => [expr.outline]) := by
  apply Outlined.of_continues
  intro depth first
  apply Continues.blanks
  apply Continues.restartAt
  intro start short led
  have drawn : Drawn start [] start := .nil (.refl start)
  obtain ⟨receive, looked⟩ := seesReceive_apply start
  apply DrawsFrom.known looked fun enclosed =>
    seesReceive_enclosed (enclosed.of_leads led) looked
  cases receive with
  | true =>
    refine Continues.skip (tag_tracks (.plain (by decide))) ?_ start short led drawn
    exact operatorOperand_continues follow literals rfl fun _ _ => rfl
  | false =>
    have starred : Steps "*" (closes (depth + 1)) (closes (depth + 1)) := .plain (by decide)
    cases star : start.after? "*" with
    | some rest =>
      have leads := starred.leads start rest star
      have reads : accept "*" start = .done true rest := by rw [accept, star]
      apply DrawsFrom.known reads
      · intro enclosed
        rw [accept, Cursor.after?_followedBy enclosed.1 starred.inLine, star]
        rfl
      · exact operatorOperand_continues follow literals rfl (fun _ _ => rfl) rest short
          (led.trans leads) (.nil (leads.reaches.mono (Nat.zero_le _)))
    | none =>
      have reads : accept "*" start = .done false start := by rw [accept, star]
      apply DrawsFrom.known reads
      · intro enclosed
        rw [accept, Cursor.after?_followedBy enclosed.1 starred.inLine, star]
        rfl
      simp only [Bool.false_eq_true, if_false]
      rw [signOperator?_followedBy follow.newLine]
      cases sign : signOperator? start with
      | none =>
        exact Continues.last (postfixExpr_outlined follow literals depth)
          (fun _ => ⟨rfl, rfl⟩) start short led drawn
      | some op =>
        obtain ⟨rest, reads, reads', leads⟩ := leads_of_signOperator? sign
        apply DrawsFrom.known reads fun _ => reads' tail
        exact operatorOperand_continues follow literals rfl (fun _ _ => rfl) rest short
          (led.trans (leads (depth + 1)))
          (.nil ((leads (depth + 1)).reaches.mono (Nat.zero_le _)))

/-- The nodes behind the left operand: none without an operator, otherwise that of the right
operand. -/
def Joined (left whole : Expr) (nodes : List Outline) : Prop :=
  ∃ right : Expr, nodes = [right.outline] ∧ whole.outline
    = .node (left.span.merge right.span) none [left.outline, right.outline]

theorem operatorStep_draws (least : Nat) (left : Expr) (depth : Nat) :
    Draws tail (limit + 1) (closes (depth + 1)) (operatorStep rules literals least left)
      (operatorStep rules' literals least left) whenSome (fun _ => closes (depth + 1))
      (WhenPresent (Joined left)) := by
  apply Draws.of_continues
  intro first
  apply Continues.here
  intro place led drawn
  rw [binaryOperator?_followedBy follow.newLine]
  cases found : binaryOperator? place with
  | none => exact .pure ⟨rfl, rfl⟩ rfl (List.Sublist.refl _)
  | some operator =>
    obtain ⟨op, rest⟩ := operator
    dsimp only [Option.map_some]
    split
    · exact .pure ⟨rfl, rfl⟩ rfl (List.Sublist.refl _)
    · have leads := leads_of_binaryOperator? found (depth + 1)
      apply Continues.resume (led.trans leads) (drawn.extend (leads.reaches.mono (Nat.zero_le _)))
      apply Continues.consult rfl (follow.binary literals (op.precedence + 1) depth)
      intro right
      exact .pure ⟨rfl, rfl⟩ ⟨right, rfl, rfl⟩ (List.Sublist.refl _)

theorem binaryExpr_outlined (least : Nat) :
    Outlined tail (limit + 1) 1 (binaryExpr rules literals least)
      (binaryExpr rules' literals least) (Shows fun expr => [expr.outline]) := by
  apply Outlined.of_continues
  intro depth first
  apply Continues.bind (unaryExpr_outlined follow literals depth)
  intro operand
  have step (left : Expr) :=
    (operatorStep_draws follow literals least left depth).mono (Nat.le_succ _)
  refine Continues.iterate rfl (fun left => (step left).tracks) follow.bound follow.bound' rfl ?_
  intro left place found rest short drawn parsed
  obtain ⟨nodes, shown, drawnNext⟩ := (step left).draws place found rest short parsed
  cases found with
  | none => exact drawn.extend drawnNext.reaches
  | some whole =>
    obtain ⟨right, rfl, outline⟩ := shown
    have merged := Drawn.merged (drawn.append drawnNext)
    rw [Expr.outline_span, Expr.outline_span, ← outline] at merged
    exact merged

theorem expressionListWith_outlined :
    Outlined tail (limit + 1) 1 (expressionListWith rules literals)
      (expressionListWith rules' literals) (Shows exprOutlines) := by
  intro depth
  apply Draws.shown (separated_outlined (fun _ => symbol_tracks (.plain (by decide)))
    (binaryExpr_outlined follow literals 1) follow.bound follow.bound' depth)
  intro exprs
  rw [exprOutlines_eq, List.map_eq_flatMap]

theorem literalElement_outlined :
    Outlined tail (limit + 1) 1 (literalElement rules) (literalElement rules')
      (Shows fun expr => [expr.outline]) := by
  apply Outlined.of_start
  intro depth first start
  apply Continues.look (nextIs_tracks (by decide))
  intro opened
  cases opened with
  | true =>
    apply Continues.bind (literalValue_outlined follow depth)
    intro elements
    exact .close (fun _ => ⟨rfl, rfl⟩) (fun _ => rfl) (by simp)
  | false => exact .last (binaryExpr_outlined follow true 1 depth) fun _ => ⟨rfl, rfl⟩

end Productions

end Unclosed.Grammar
