import Unclosed.Proofs.BracketDepth

/-!
Two runs of parsers side by side.  The second run has the same text before it,
and perhaps more text behind, on a new line.  It *tracks* the first one when it
gives the same reply wherever the first stands between brackets that are still
to be closed.  With nothing behind, the two replies are equal, faults included.

The first run is described on the way: a result is found behind the start, with
the brackets it has opened and closed accounted for, and a fault is reported
inside of what the parser was reading.
-/

namespace Unclosed.Grammar

/-! ### Faults -/

/-- The fault lies behind the start, and so do the constructs that it names, inner ones
behind outer ones. -/
structure Fault.Within (start : Cursor) (fault : Fault) : Prop where
  reaches : start.Reaches 0 fault.position
  inside : ∀ entry ∈ fault.contexts, start.offset ≤ entry.1 ∧ entry.1 ≤ fault.position.offset
  ordered : fault.contexts.Pairwise fun inner outer => outer.1 ≤ inner.1

namespace Fault.Within

variable {start middle : Cursor} {fault other : Fault}

theorem silent (reaches : start.Reaches 0 middle) : (Fault.silent middle).Within start :=
  ⟨reaches, by simp [Fault.silent], .nil⟩

theorem saying (message : String) (reaches : start.Reaches 0 middle) :
    (Fault.saying message middle).Within start :=
  ⟨reaches, by simp [Fault.saying], .nil⟩

theorem back {least : Nat} (reaches : start.Reaches least middle) (within : fault.Within middle) :
    fault.Within start where
  reaches := (reaches.trans within.reaches).mono (Nat.zero_le _)
  inside := by
    intro entry member
    have := reaches.offset_le
    have := within.inside entry member
    omega
  ordered := within.ordered

theorem furthest (first : fault.Within start) (second : other.Within start) :
    (fault.furthest other).Within start := by
  unfold Fault.furthest
  split
  · exact second
  · split
    · exact first
    · split
      · exact second
      · exact first

theorem within (label : String) (within : fault.Within start) :
    (fault.within start label).Within start where
  reaches := within.reaches
  inside := by
    have := within.reaches.offset_le
    intro entry member
    rcases List.mem_append.mp member with inner | outer
    · exact within.inside entry inner
    · rw [List.mem_singleton.mp outer]
      exact ⟨Nat.le_refl _, this⟩
  ordered := by
    apply List.pairwise_append.mpr
    refine ⟨within.ordered, List.pairwise_singleton _ _, ?_⟩
    intro inner member outer last
    rw [List.mem_singleton.mp last]
    exact (within.inside inner member).1

end Fault.Within

/-! ### Places between brackets -/

abbrev Gauge : Type := List Char → Bool

/-- Reading on keeps what is told of the text behind, as the brackets between are counted. -/
structure Cursor.Leads (least : Nat) (start : Cursor) (gauge : Gauge) (stop : Cursor)
    (gauge' : Gauge) : Prop where
  reaches : start.Reaches least stop
  same : gauge' stop.rest = gauge start.rest

/-- What follows starts a new line, and the text closes the brackets around this place
itself unless nothing follows. -/
def Cursor.Enclosed (tail : List Char) (gauge : Gauge) (cursor : Cursor) : Prop :=
  NewLine tail ∧ (tail = [] ∨ gauge cursor.rest = true)

namespace Cursor

variable {start middle stop : Cursor} {least more : Nat} {gauge gauge' gauge'' : Gauge}
  {tail : List Char}

theorem Reaches.textTo_followedBy (reaches : start.Reaches least stop) (tail : List Char) :
    (start.followedBy tail).textTo (stop.followedBy tail) = start.textTo stop := by
  obtain ⟨read, _, text, offset⟩ := reaches
  rw [Reaches.textTo_eq text offset]
  apply Reaches.textTo_eq
  · rw [followedBy, followedBy, text, List.append_assoc]
  · exact offset

theorem below (start : Cursor) (so : Nat) : start.rest.length < start.rest.length + 1 + so := by
  omega

theorem Leads.refl (start : Cursor) (gauge : Gauge) : start.Leads 0 gauge start gauge :=
  ⟨.refl start, rfl⟩

theorem Leads.trans (first : start.Leads least gauge middle gauge')
    (second : middle.Leads more gauge' stop gauge'') :
    start.Leads (least + more) gauge stop gauge'' :=
  ⟨first.reaches.trans second.reaches, second.same.trans first.same⟩

theorem Leads.mono (leads : start.Leads least gauge stop gauge') (le : more ≤ least) :
    start.Leads more gauge stop gauge' :=
  ⟨leads.reaches.mono le, leads.same⟩

theorem Enclosed.of_leads (enclosed : start.Enclosed tail gauge)
    (leads : start.Leads least gauge stop gauge') : stop.Enclosed tail gauge' := by
  unfold Enclosed
  rw [leads.same]
  exact enclosed

end Cursor

/-! ### Replies -/

/-- The second reply is the first one in a text that goes on. -/
inductive Reply.Matches {α : Type} (tail : List Char) : Reply α → Reply α → Prop where
  | done (value : α) (rest : Cursor) :
      Matches tail (.done value rest) (.done value (rest.followedBy tail))
  | miss {fault fault' : Fault} (same : tail = [] → fault' = fault) :
      Matches tail (.miss fault) (.miss fault')
  | halt {fault fault' : Fault} (same : tail = [] → fault' = fault) :
      Matches tail (.halt fault) (.halt fault')

theorem Reply.Matches.refl {α : Type} (reply : Reply α) : reply.Matches [] reply := by
  cases reply with
  | done value rest =>
    have alike : Reply.Matches [] (.done value rest) (.done value (rest.followedBy [])) :=
      .done value rest
    rwa [Cursor.followedBy_nil] at alike
  | miss fault => exact .miss fun _ => rfl
  | halt fault => exact .halt fun _ => rfl

theorem Reply.Matches.eq {α : Type} {first second : Reply α} (alike : first.Matches [] second) :
    second = first := by
  cases alike with
  | done value rest => rw [Cursor.followedBy_nil]
  | miss same => rw [same rfl]
  | halt same => rw [same rfl]

theorem Reply.Matches.isDone {α : Type} {tail : List Char} {first second : Reply α}
    (alike : first.Matches tail second) : second.isDone = first.isDone := by
  cases alike <;> rfl

namespace Parser

variable {α β : Type} {tail : List Char} {limit : Nat}

/-- A result is reached from the place, by so many characters and with what the
value tells of the text behind, and a fault lies behind the place. -/
def Settled (first : Cursor) (gauge : Gauge) (least : α → Nat) (after : α → Gauge) : Reply α → Prop
  | .done value rest => first.Leads (least value) gauge rest (after value)
  | .miss fault => fault.Within first
  | .halt fault => fault.Within first

/-- What two parsers do that run at one place, in a construct that started at `first`. -/
structure TracksFrom (tail : List Char) (first : Cursor) (gauge : Gauge) (start : Cursor)
    (parser parser' : Parser α) (least : α → Nat) (after : α → Gauge) : Prop where
  settled : Settled first gauge least after (parser start)
  alike : first.Enclosed tail gauge → (parser start).Matches tail (parser' (start.followedBy tail))

/-- The second parser tracks the first one on all texts below the limit. -/
def Tracks (tail : List Char) (limit : Nat) (gauge : Gauge) (parser parser' : Parser α)
    (least : α → Nat) (after : α → Gauge) : Prop :=
  ∀ first, first.rest.length < limit → TracksFrom tail first gauge first parser parser' least after

def Balanced (tail : List Char) (limit least : Nat) (parser parser' : Parser α) : Prop :=
  ∀ depth, Tracks tail limit (closes (depth + 1)) parser parser' (fun _ => least)
    fun _ => closes (depth + 1)

/-- The parsers read no brackets, quotes or comments, wherever they stand. -/
def Plain (tail : List Char) (limit least : Nat) (parser parser' : Parser α) : Prop :=
  ∀ depth, Tracks tail limit (closes depth) parser parser' (fun _ => least) fun _ => closes depth

theorem Plain.balanced {least : Nat} {parser parser' : Parser α}
    (plain : Plain tail limit least parser parser') : Balanced tail limit least parser parser' :=
  fun depth => plain (depth + 1)

theorem Tracks.mono {gauge : Gauge} {parser parser' : Parser α} {least : α → Nat}
    {after : α → Gauge}
    (tracks : Tracks tail limit gauge parser parser' least after) {lower : Nat}
    (le : lower ≤ limit) : Tracks tail lower gauge parser parser' least after :=
  fun first short => tracks first (Nat.lt_of_lt_of_le short le)

theorem bind_apply (parser : Parser α) (next : α → Parser β) (start : Cursor) :
    (parser >>= next) start =
      match parser start with
      | .done value rest => next value rest
      | .miss fault => .miss fault
      | .halt fault => .halt fault :=
  rfl

theorem bind_bind {γ : Type} (parser : Parser α) (next : α → Parser β) (last : β → Parser γ) :
    (parser >>= next) >>= last = parser >>= fun value => next value >>= last := by
  funext start
  rw [bind_apply, bind_apply, bind_apply]
  cases parser start <;> rfl

theorem bind_of_done {parser : Parser α} {next : α → Parser β} {value : α} {start middle : Cursor}
    (parsed : parser start = .done value middle) :
    (parser >>= next) start = next value middle := by
  rw [bind_apply, parsed]

theorem accepts_bind (parser : Parser Unit) (next : Bool → Parser β) :
    accepts parser >>= next = probe parser >>= fun found => next found.isSome := by
  rw [accepts, bind_bind]
  rfl

/-! ### Sequences -/

namespace TracksFrom

variable {first start : Cursor} {gauge₀ gauge : Gauge} {so : Nat} {parser parser' : Parser α}
  {next next' : α → Parser β} {least : β → Nat} {after : β → Gauge}

/-- One parser after another that has been followed from the start of the construct. -/
theorem andThen {least₁ : α → Nat} {after₁ : α → Gauge}
    (run : TracksFrom tail first gauge₀ start parser parser' least₁ after₁)
    (later : ∀ value rest, parser start = .done value rest →
      first.Leads (least₁ value) gauge₀ rest (after₁ value) →
        TracksFrom tail first gauge₀ rest (next value) (next' value) least after) :
    TracksFrom tail first gauge₀ start (parser >>= next) (parser' >>= next') least after := by
  obtain ⟨settled, alike⟩ := run
  constructor
  · rw [bind_apply]
    cases reply : parser start with
    | done value rest =>
      rw [reply] at settled
      exact (later value rest reply settled).settled
    | miss fault | halt fault =>
      rw [reply] at settled
      exact settled
  · intro enclosed
    have alike := alike enclosed
    rw [bind_apply, bind_apply]
    revert alike
    generalize parser' (start.followedBy tail) = reply'
    cases reply : parser start with
    | done value rest =>
      rw [reply] at settled
      rintro ⟨⟩
      exact (later value rest reply settled).alike enclosed
    | miss fault =>
      rintro (_ | same)
      exact .miss same
    | halt fault =>
      rintro (_ | _ | same)
      exact .halt same

/-- A parser that is followed from where it starts is followed from the start of the construct. -/
theorem of_tracks {least₁ : α → Nat} {after₁ : α → Gauge}
    (tracks : Tracks tail limit gauge parser parser' least₁ after₁)
    (led : first.Leads so gauge₀ start gauge) (short : first.rest.length < limit + so) :
    TracksFrom tail first gauge₀ start parser parser' (fun value => so + least₁ value) after₁ := by
  have length := led.reaches.length_le
  obtain ⟨settled, alike⟩ := tracks start (by omega)
  constructor
  · cases reply : parser start with
    | done value rest =>
      rw [reply] at settled
      exact led.trans settled
    | miss fault | halt fault =>
      rw [reply] at settled
      exact settled.back led.reaches
  · intro enclosed
    exact alike (enclosed.of_leads led)

theorem bind {least₁ : α → Nat} {after₁ : α → Gauge}
    (tracks : Tracks tail limit gauge parser parser' least₁ after₁)
    (led : first.Leads so gauge₀ start gauge)
    (short : first.rest.length < limit + so)
    (later : ∀ value rest, first.Leads (so + least₁ value) gauge₀ rest (after₁ value) →
      TracksFrom tail first gauge₀ rest (next value) (next' value) least after) :
    TracksFrom tail first gauge₀ start (parser >>= next) (parser' >>= next') least after := by
  exact (of_tracks tracks led short).andThen fun value rest _ => later value rest

theorem call {parser parser' : Parser β} {least₁ : β → Nat} {after₁ : β → Gauge}
    (tracks : Tracks tail limit gauge parser parser' least₁ after₁)
    (led : first.Leads so gauge₀ start gauge)
    (short : first.rest.length < limit + so)
    (enough : ∀ value, least value ≤ so + least₁ value)
    (same : ∀ value, after₁ value = after value) :
    TracksFrom tail first gauge₀ start parser parser' least after := by
  obtain ⟨settled, alike⟩ := of_tracks tracks led short
  refine ⟨?_, alike⟩
  cases reply : parser start with
  | done value rest =>
    rw [reply] at settled
    have leads : first.Leads (so + least₁ value) gauge₀ rest (after₁ value) := settled
    rw [same value] at leads
    exact leads.mono (enough value)
  | miss fault | halt fault =>
    rw [reply] at settled
    exact settled

theorem here {next next' : Cursor → Parser β}
    (later : TracksFrom tail first gauge₀ start (next start) (next' (start.followedBy tail))
      least after) :
    TracksFrom tail first gauge₀ start (Parser.here >>= next) (Parser.here >>= next') least after :=
  ⟨later.settled, later.alike⟩

/-- Going back to a place of the construct. -/
theorem resume {place : Cursor} {next next' : Unit → Parser β}
    (later : TracksFrom tail first gauge₀ place (next ()) (next' ()) least after) :
    TracksFrom tail first gauge₀ start (Parser.resume place >>= next)
      (Parser.resume (place.followedBy tail) >>= next') least after :=
  ⟨later.settled, later.alike⟩

theorem span {place : Cursor} {next next' : Span → Parser β}
    (later : ∀ span, TracksFrom tail first gauge₀ start (next span) (next' span) least after) :
    TracksFrom tail first gauge₀ start (spanFrom place >>= next)
      (spanFrom (place.followedBy tail) >>= next') least after :=
  ⟨(later ⟨place.offset, start.offset⟩).settled, (later ⟨place.offset, start.offset⟩).alike⟩

theorem pure {value : β} (led : first.Leads so gauge₀ start gauge)
    (enough : least value ≤ so) (same : gauge = after value) :
    TracksFrom tail first gauge₀ start (Pure.pure value) (Pure.pure value) least after := by
  subst same
  exact ⟨led.mono enough, fun _ => .done value start⟩

theorem missing {reply reply' : Cursor → Fault} {parser parser' : Parser β}
    (miss : parser start = .miss (reply start))
    (miss' : parser' (start.followedBy tail) = .miss (reply' (start.followedBy tail)))
    (within : (reply start).Within first) (same : reply' start = reply start) :
    TracksFrom tail first gauge₀ start parser parser' least after := by
  constructor
  · rw [miss]
    exact within
  · intro _
    rw [miss, miss']
    apply Reply.Matches.miss
    rintro rfl
    rw [Cursor.followedBy_nil, same]

theorem fail (led : first.Leads so gauge₀ start gauge) :
    TracksFrom tail first gauge₀ start (Parser.fail : Parser β) Parser.fail least after :=
  missing rfl rfl (.silent (led.reaches.mono (Nat.zero_le _))) rfl

theorem failSaying (message : String) (led : first.Leads so gauge₀ start gauge) :
    TracksFrom tail first gauge₀ start (Parser.failSaying message : Parser β)
      (Parser.failSaying message) least after :=
  missing rfl rfl (.saying message (led.reaches.mono (Nat.zero_le _))) rfl

theorem failSaying_bind (message : String) {next next' : α → Parser β}
    (led : first.Leads so gauge₀ start gauge) :
    TracksFrom tail first gauge₀ start (Parser.failSaying message >>= next)
      (Parser.failSaying message >>= next') least after :=
  missing rfl rfl (.saying message (led.reaches.mono (Nat.zero_le _))) rfl

theorem haltSaying (message : String) (led : first.Leads so gauge₀ start gauge) :
    TracksFrom tail first gauge₀ start (Parser.haltSaying message : Parser β)
      (Parser.haltSaying message) least after := by
  refine ⟨.saying message (led.reaches.mono (Nat.zero_le _)), fun _ => .halt ?_⟩
  rintro rfl
  rw [Cursor.followedBy_nil]

theorem given {value : α}
    (later : TracksFrom tail first gauge₀ start (next value) (next' value) least after) :
    TracksFrom tail first gauge₀ start (Pure.pure value >>= next) (Pure.pure value >>= next')
      least after :=
  ⟨later.settled, later.alike⟩

theorem agree {answer answer' : Bool} {yes yes' no no' : Parser β}
    (same : first.Enclosed tail gauge₀ → answer' = answer)
    (ifYes : TracksFrom tail first gauge₀ start yes yes' least after)
    (ifNo : TracksFrom tail first gauge₀ start no no' least after) :
    TracksFrom tail first gauge₀ start (if answer = true then yes else no)
      (if answer' = true then yes' else no') least after := by
  constructor
  · cases answer with
    | true => exact ifYes.settled
    | false => exact ifNo.settled
  · intro enclosed
    rw [same enclosed]
    cases answer with
    | true => exact ifYes.alike enclosed
    | false => exact ifNo.alike enclosed

end TracksFrom

/-! ### Combinators -/

@[simp] def Turn.least : Turn α → Nat
  | .pass | .more _ => 1
  | .stop | .last _ => 0

@[simp] def Turn.gauge (inside stops : Gauge) : Turn α → Gauge
  | .pass | .more _ => inside
  | .stop | .last _ => stops

@[simp] def whenSome : Option α → Nat
  | none => 0
  | some _ => 1

section Combinators

variable {gauge : Gauge} {parser parser' second second' : Parser α} {least : α → Nat}
  {after : α → Gauge}

theorem Balanced.of_from {least : Nat}
    (run : ∀ depth first, first.rest.length < limit →
      first.Leads 0 (closes (depth + 1)) first (closes (depth + 1)) →
        TracksFrom tail first (closes (depth + 1)) first parser parser' (fun _ => least)
          fun _ => closes (depth + 1)) :
    Balanced tail limit least parser parser' :=
  fun depth first short => run depth first short (.refl first _)

theorem Plain.of_from {least : Nat}
    (run : ∀ depth first, first.rest.length < limit →
      first.Leads 0 (closes depth) first (closes depth) →
        TracksFrom tail first (closes depth) first parser parser' (fun _ => least)
          fun _ => closes depth) :
    Plain tail limit least parser parser' :=
  fun depth first short => run depth first short (.refl first _)

theorem Balanced.mono {least least' limit' : Nat}
    (balanced : Balanced tail limit least parser parser') (fewer : least' ≤ least)
    (lower : limit' ≤ limit) : Balanced tail limit' least' parser parser' :=
  fun depth _ short =>
    .call (balanced depth) (.refl _ _) (by omega) (fun _ => by omega) fun _ => rfl

section

variable (tracks : Tracks tail limit gauge parser parser' least after)
include tracks

/-- A look ahead whose answer both runs share. -/
theorem sees_tracks :
    Tracks tail limit gauge (sees parser) (sees parser') (fun _ => 0) fun _ => gauge := by
  intro first short
  refine ⟨.refl first gauge, fun enclosed => ?_⟩
  have same := ((tracks first short).alike enclosed).isDone
  rw [sees, sees, same]
  exact .done _ first

/-- A part that may be absent: a miss leaves the place, and behind a probe any failure does. -/
theorem part_tracks {part : Parser α → Parser (Option α)}
    (known : part = probe ∨ part = optional) :
    Tracks tail limit gauge (part parser) (part parser') (fun found => found.elim 0 least)
      fun found => found.elim gauge after := by
  intro first short
  obtain ⟨settled, alike⟩ := tracks first short
  constructor
  · cases reply : parser first with
    | done value rest | miss fault | halt fault =>
      rw [reply] at settled
      rcases known with rfl | rfl <;> simp only [probe, optional, reply]
      all_goals first
        | exact settled
        | exact .refl first gauge
  · intro enclosed
    have alike := alike enclosed
    revert alike
    rcases known with rfl | rfl <;> simp only [probe, optional]
    all_goals
      generalize parser first = reply
      generalize parser' (first.followedBy tail) = reply'
      intro alike
      cases alike with
      | done value rest => exact .done (some value) rest
      | miss same | halt same => first
        | exact .done none first
        | exact .halt same

omit tracks in
theorem accepts_tracks {parser parser' : Parser Unit} {least : Unit → Nat} {after : Unit → Gauge}
    (tracks : Tracks tail limit gauge parser parser' least after) :
    Tracks tail limit gauge (accepts parser) (accepts parser')
      (fun found => bif found then least () else 0) fun found => bif found then after () else gauge := by
  intro first short
  apply TracksFrom.bind (part_tracks tracks (.inl rfl)) (.refl first gauge) (by omega)
  intro found rest led
  cases found with
  | none | some value => exact .pure led (by simp) rfl

omit tracks in
theorem TracksFrom.accepts {first start : Cursor} {gauge₀ : Gauge} {so : Nat} {least₁ : Unit → Nat}
    {after₁ : Unit → Gauge} {word word' : Parser Unit} {next next' : Bool → Parser α}
    (tracks : Tracks tail limit gauge word word' least₁ after₁)
    (led : first.Leads so gauge₀ start gauge) (short : first.rest.length < limit + so)
    (present : ∀ rest, first.Leads (so + least₁ ()) gauge₀ rest (after₁ ()) →
      TracksFrom tail first gauge₀ rest (next true) (next' true) least after)
    (absent : ∀ rest, first.Leads so gauge₀ rest gauge →
      TracksFrom tail first gauge₀ rest (next false) (next' false) least after) :
    TracksFrom tail first gauge₀ start (Parser.accepts word >>= next)
      (Parser.accepts word' >>= next') least after := by
  apply TracksFrom.bind (accepts_tracks tracks) led short
  intro found rest led
  cases found with
  | true => exact present rest led
  | false => exact absent rest led

omit tracks in
/-- A part that leaves the gauge, present or absent. -/
theorem skipOptional_tracks {least : Nat}
    (tracks : Tracks tail limit gauge parser parser' (fun _ => least) fun _ => gauge) :
    Tracks tail limit gauge (optional parser) (optional parser') (fun _ => 0) fun _ => gauge := by
  intro first short
  apply TracksFrom.call (part_tracks tracks (.inr rfl)) (.refl first gauge) (by omega) (fun _ => by omega)
  intro found
  cases found <;> rfl

theorem orElse_tracks (tracksSecond : Tracks tail limit gauge second second' least after) :
    Tracks tail limit gauge (parser <|> second) (parser' <|> second') least after := by
  intro first short
  obtain ⟨settled, alike⟩ := tracks first short
  obtain ⟨settledSecond, alikeSecond⟩ := tracksSecond first short
  constructor
  · change Settled first gauge least after (orElse parser (fun _ => second) first)
    rw [orElse]
    cases reply : parser first with
    | done value rest | halt fault =>
      rw [reply] at settled
      exact settled
    | miss fault =>
      rw [reply] at settled
      cases replySecond : second first with
      | miss fault' =>
        rw [replySecond] at settledSecond
        exact settled.furthest settledSecond
      | done value rest | halt fault' =>
        rw [replySecond] at settledSecond
        exact settledSecond
  · intro enclosed
    have alike := alike enclosed
    have alikeSecond := alikeSecond enclosed
    change Reply.Matches tail (orElse parser (fun _ => second) first)
      (orElse parser' (fun _ => second') (first.followedBy tail))
    rw [orElse, orElse]
    revert alike alikeSecond
    generalize parser first = reply
    generalize parser' (first.followedBy tail) = reply'
    generalize second first = replySecond
    generalize second' (first.followedBy tail) = replySecond'
    intro alike alikeSecond
    cases alike with
    | done value rest => exact .done value rest
    | halt same => exact .halt same
    | miss same =>
      cases alikeSecond with
      | done value rest => exact .done value rest
      | halt same' => exact .halt same'
      | miss same' =>
        apply Reply.Matches.miss
        intro empty
        rw [same empty, same' empty]

end

theorem context_tracks (label : String)
    (tracks : Tracks tail limit gauge parser parser' least after) :
    Tracks tail limit gauge (context label parser) (context label parser') least after := by
  intro first short
  obtain ⟨settled, alike⟩ := tracks first short
  constructor
  · rw [context]
    cases reply : parser first with
    | done value rest =>
      rw [reply] at settled
      exact settled
    | halt fault | miss fault =>
      rw [reply] at settled
      exact settled.within label
  · intro enclosed
    have alike := alike enclosed
    rw [context, context]
    revert alike
    generalize parser first = reply
    generalize parser' (first.followedBy tail) = reply'
    intro alike
    cases alike with
    | done value rest => exact .done value rest
    | miss same =>
      apply Reply.Matches.miss
      intro empty
      rw [same empty, empty, Cursor.followedBy_nil]
    | halt same =>
      apply Reply.Matches.halt
      intro empty
      rw [same empty, empty, Cursor.followedBy_nil]

theorem map_tracks {f : α → β} {least : Nat} {after : Gauge}
    (tracks : Tracks tail limit gauge parser parser' (fun _ => least) fun _ => after) :
    Tracks tail limit gauge (f <$> parser) (f <$> parser') (fun _ => least) fun _ => after := by
  intro first short
  apply TracksFrom.bind tracks (.refl first gauge) (by omega)
  intro value rest led
  exact .pure led (by omega) rfl

/-- A repetition whose turns read on uses up fewer turns than there are characters. -/
theorem collect_tracks {stops : Gauge} {turn turn' : Parser (Turn α)}
    (tracks : Tracks tail limit gauge turn turn' Turn.least (Turn.gauge gauge stops))
    {bound bound' : Nat} (enough : limit ≤ bound) (enough' : limit ≤ bound') :
    Tracks tail limit gauge (collect turn bound) (collect turn' bound') (fun _ => 0)
      fun _ => stops := by
  induction limit generalizing bound bound' with
  | zero =>
    intro first short
    cases short
  | succ limit ih =>
    obtain ⟨bound, rfl⟩ : ∃ fewer, bound = fewer + 1 := ⟨bound - 1, by omega⟩
    obtain ⟨bound', rfl⟩ : ∃ fewer, bound' = fewer + 1 := ⟨bound' - 1, by omega⟩
    have others : Tracks tail limit gauge (collect turn bound) (collect turn' bound')
        (fun _ => 0) fun _ => stops :=
      ih (tracks.mono (Nat.le_succ _)) (by omega) (by omega)
    intro first short
    apply TracksFrom.bind tracks (.refl first gauge) (by omega)
    intro step rest led
    cases step with
    | stop | last item => exact .pure led (by omega) rfl
    | pass =>
      dsimp only [Turn.least, Turn.gauge] at led
      exact .call others led (by omega) (fun _ => by omega) fun _ => rfl
    | more item =>
      dsimp only [Turn.least, Turn.gauge] at led
      apply TracksFrom.bind others led (by omega)
      intro items rest led
      exact .pure led (by omega) rfl

theorem iterate_tracks {step step' : α → Parser (Option α)}
    (tracks : ∀ value, Tracks tail limit gauge (step value) (step' value) whenSome fun _ => gauge)
    {bound bound' : Nat} (enough : limit ≤ bound) (enough' : limit ≤ bound') (value : α) :
    Tracks tail limit gauge (iterate step bound value) (iterate step' bound' value) (fun _ => 0)
      fun _ => gauge := by
  induction limit generalizing bound bound' value with
  | zero =>
    intro first short
    cases short
  | succ limit ih =>
    obtain ⟨bound, rfl⟩ : ∃ fewer, bound = fewer + 1 := ⟨bound - 1, by omega⟩
    obtain ⟨bound', rfl⟩ : ∃ fewer, bound' = fewer + 1 := ⟨bound' - 1, by omega⟩
    intro first short
    apply TracksFrom.bind (tracks value) (.refl first gauge) (by omega)
    intro next rest led
    cases next with
    | none => exact .pure led (by omega) rfl
    | some next =>
      dsimp only [whenSome] at led
      exact .call (ih (fun value => (tracks value).mono (Nat.le_succ _))
        (by omega) (by omega) next) led (by omega) (fun _ => by omega) fun _ => rfl

theorem recognize_tracks {parser parser' : Parser Unit} {least : Unit → Nat} {after : Unit → Gauge}
    (tracks : Tracks tail limit gauge parser parser' least after) :
    Tracks tail limit gauge (recognize parser) (recognize parser') (fun _ => least ())
      fun _ => after () := by
  intro first short
  apply TracksFrom.here
  apply TracksFrom.bind tracks (.refl first gauge) (by omega)
  rintro ⟨⟩ rest led
  apply TracksFrom.here
  rw [led.reaches.textTo_followedBy tail]
  exact .pure led (by simp) rfl

end Combinators

theorem reaches_of_balanced {α : Type} {least : Nat} {parser parser' : Parser α}
    {start rest : Cursor} {value : α}
    (balanced : Balanced [] (start.rest.length + 1) least parser parser')
    (parsed : parser start = .done value rest) : start.Reaches least rest := by
  have settled := (balanced 0 start (Nat.lt_succ_self _)).settled
  rw [parsed] at settled
  exact settled.reaches

end Parser

end Unclosed.Grammar
