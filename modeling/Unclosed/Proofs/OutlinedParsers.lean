import Unclosed.Proofs.SyntaxOutlines
import Unclosed.Proofs.TrackedTokens

/-!
Parsers that are followed in two runs and read faithful outlines.  What a parser
reads is drawn between the place where it started and the place it reached: its
nodes are faithful, lie between the two places and stand one behind the other.
A sequence of parsers draws what its parts draw, and a node is drawn around them
at its end.
-/

namespace Unclosed.Grammar

variable {part : Outline} {lower shorter bound bound' : Nat} {answer : Bool}
  {separator separator' : Parser Unit}

theorem Cursor.In.reads {source : String} {start stop : Cursor} (inside : start.In source)
    {read : List Char} (text : start.rest = read ++ stop.rest)
    (offset : stop.offset = start.offset + byteLength read) :
    Span.Reads source ⟨start.offset, stop.offset⟩ (String.ofList read) := by
  obtain ⟨before, whole, counted⟩ := inside.text
  refine ⟨String.ofList before, String.ofList stop.rest, ?_, ?_, ?_⟩
  · rw [← String.ofList_append, ← String.ofList_append, List.append_assoc, ← text, ← whole,
      String.ofList_toList]
  · rw [utf8ByteSize_ofList, counted]
  · rw [← String.ofList_append, utf8ByteSize_ofList, byteLength_append, offset, counted]

/-! ### Drawn nodes -/

/-- The nodes stand in a row between two places, in whatever text these are places of. -/
structure Drawn (start : Cursor) (nodes : List Outline) (stop : Cursor) : Prop where
  reaches : start.Reaches 0 stop
  row : ∀ {source : String}, start.In source → Outline.Row source start.offset nodes stop.offset

namespace Drawn

variable {start middle stop : Cursor} {first second : List Outline}

theorem nil (reaches : start.Reaches 0 stop) : Drawn start [] stop :=
  ⟨reaches, fun _ => .nil reaches.offset_le⟩

theorem append (before : Drawn start first middle) (after : Drawn middle second stop) :
    Drawn start (first ++ second) stop where
  reaches := before.reaches.trans after.reaches
  row inSource := (before.row inSource).append (after.row (inSource.of_reaches before.reaches))

theorem extend (before : Drawn start first middle) (reaches : middle.Reaches 0 stop) :
    Drawn start first stop := by
  simpa using before.append (nil reaches)

theorem back (reaches : start.Reaches 0 middle) (after : Drawn middle first stop) :
    Drawn start first stop := by
  simpa using (nil reaches).append after

theorem sublist (drawn : Drawn start second stop) (part : first.Sublist second) :
    Drawn start first stop :=
  ⟨drawn.reaches, fun inSource => (drawn.row inSource).sublist part⟩

theorem unfold {node : Outline} (drawn : Drawn start (first ++ node :: second) stop) :
    Drawn start (first ++ node.parts ++ second) stop :=
  ⟨drawn.reaches, fun inSource => (drawn.row inSource).unfold⟩

/-- A node around all that is drawn between two places. -/
theorem node (drawn : Drawn start first stop) :
    Drawn start [.node ⟨start.offset, stop.offset⟩ none first] stop where
  reaches := drawn.reaches
  row {source} inSource := by
    have stopInSource := inSource.of_reaches drawn.reaches
    have sound : (Outline.node ⟨start.offset, stop.offset⟩ none first).Sound source :=
      (drawn.row inSource).enclosed stopInSource.offset_le inSource.isValid stopInSource.isValid
    exact .single sound

/-- A node for the characters between two places. -/
theorem word {read : List Char} (nonempty : read ≠ []) (text : start.rest = read ++ stop.rest)
    (offset : stop.offset = start.offset + byteLength read) :
    Drawn start [.node ⟨start.offset, stop.offset⟩ (some (String.ofList read)) []] stop := by
  have reaches : start.Reaches 0 stop := ⟨read, Nat.zero_le _, text, offset⟩
  refine ⟨reaches, fun {source} inSource => ?_⟩
  have stopInSource := inSource.of_reaches reaches
  have faithful : (Outline.node ⟨start.offset, stop.offset⟩ (some (String.ofList read))
      []).Faithful source := by
    apply Outline.Faithful.node reaches.offset_le stopInSource.offset_le inSource.isValid
      stopInSource.isValid
    · intro word named
      cases named
      exact inSource.reads text offset
    · simp
    · exact .nil
    · simp
  exact .single ⟨faithful, .node (by simpa using nonempty) (by simp)⟩

theorem point (drawn : Drawn start first stop) :
    Drawn start [.node ⟨start.offset, start.offset⟩ none []] stop :=
  (nil (.refl start)).node.extend drawn.reaches

/-- A node that starts here and ends with its only part. -/
theorem upTo (drawn : Drawn start [part] stop) :
    Drawn start [.node ⟨start.offset, part.span.stop⟩ none [part]] stop where
  reaches := drawn.reaches
  row {source} inSource := by
    have inside := (drawn.row inSource).inside part (by simp)
    have partSound := (drawn.row inSource).sound part (by simp)
    have row := (Outline.Row.single partSound).widen inside.1 (Nat.le_refl _)
    have sound : (Outline.node ⟨start.offset, part.span.stop⟩ none [part]).Sound source :=
      row.enclosed partSound.faithful.fits inSource.isValid partSound.faithful.stopValid
    exact (Outline.Row.single sound).widen (Nat.le_refl _) inside.2

/-- A node over the range of two nodes that it has as its parts. -/
theorem merged {left right : Outline} (drawn : Drawn start [left, right] stop) :
    Drawn start [.node (left.span.merge right.span) none [left, right]] stop where
  reaches := drawn.reaches
  row {source} inSource := by
    have row : Outline.Row source start.offset (left :: [] ++ [right]) stop.offset :=
      drawn.row inSource
    exact row.merged row.between

/-- A node that is the only part of another one over the same range. -/
theorem wrapped (drawn : Drawn start [part] stop) :
    Drawn start [.node part.span none [part]] stop where
  reaches := drawn.reaches
  row inSource := by
    have inside := (drawn.row inSource).inside part (by simp)
    have sound := (drawn.row inSource).sound part (by simp)
    exact Outline.Row.widen (.single (sound.faithful.refill (.single sound))) inside.1 inside.2

end Drawn

namespace Parser

variable {α β : Type} {tail : List Char} {limit : Nat}

/-! ### Parsers that draw -/

def Shows (outlines : α → List Outline) (value : α) (nodes : List Outline) : Prop :=
  nodes = outlines value

/-- The nodes are the parts of the construct, whatever its range will be. -/
def Frames (outline : α → Outline) (build : Span → α) (parts : List Outline) : Prop :=
  ∀ span, outline (build span) = .node span none parts

/-- The second parser tracks the first one, and what the first one reads is drawn from its
start to its end.  The result is related to the nodes drawn. -/
structure Draws (tail : List Char) (limit : Nat) (gauge : Gauge) (parser parser' : Parser α)
    (least : α → Nat) (after : α → Gauge) (shows : α → List Outline → Prop) : Prop where
  tracks : Tracks tail limit gauge parser parser' least after
  draws : ∀ start value rest, start.rest.length < limit → parser start = .done value rest →
    ∃ nodes, shows value nodes ∧ Drawn start nodes rest

def Outlined (tail : List Char) (limit least : Nat) (parser parser' : Parser α)
    (shows : α → List Outline → Prop) : Prop :=
  ∀ depth, Draws tail limit (closes (depth + 1)) parser parser' (fun _ => least)
    (fun _ => closes (depth + 1)) shows

/-- What two parsers do that run at one place, in a construct that started at `first`.  Nodes
are drawn from the anchor on. -/
structure DrawsFrom (tail : List Char) (first : Cursor) (gauge : Gauge) (anchor start : Cursor)
    (parser parser' : Parser α) (least : α → Nat) (after : α → Gauge)
    (shows : α → List Outline → Prop) : Prop where
  tracks : TracksFrom tail first gauge start parser parser' least after
  draws : ∀ value rest, parser start = .done value rest →
    ∃ nodes, shows value nodes ∧ Drawn anchor nodes rest

/-- What two parsers do that go on in a construct, wherever so many characters have been read
and these nodes have been drawn before. -/
def Continues (tail : List Char) (limit : Nat) (first : Cursor) (gauge₀ : Gauge) (anchor : Cursor)
    (so : Nat) (gauge : Gauge) (before : List Outline) (parser parser' : Parser α)
    (least : α → Nat) (after : α → Gauge) (shows : α → List Outline → Prop) : Prop :=
  ∀ start, first.rest.length < limit → first.Leads so gauge₀ start gauge →
    Drawn anchor before start →
      DrawsFrom tail first gauge₀ anchor start parser parser' least after shows

theorem Outlined.balanced {least : Nat} {parser parser' : Parser α}
    {shows : α → List Outline → Prop} (outlined : Outlined tail limit least parser parser' shows) :
    Balanced tail limit least parser parser' :=
  fun depth => (outlined depth).tracks

namespace Draws

variable {gauge : Gauge} {parser parser' : Parser α} {least : α → Nat} {after : α → Gauge}
  {shows : α → List Outline → Prop}

theorem of_continues (run : ∀ first,
      Continues tail limit first gauge first 0 gauge [] parser parser' least after shows) :
    Draws tail limit gauge parser parser' least after shows where
  tracks first short := (run first first short (.refl first gauge) (.nil (.refl first))).tracks
  draws start value rest short :=
    (run start start short (.refl start gauge) (.nil (.refl start))).draws value rest

theorem of_tracks (tracks : Tracks tail limit gauge parser parser' least after) :
    Draws tail limit gauge parser parser' least after (Shows fun _ => []) where
  tracks := tracks
  draws start value rest short parsed := by
    have settled := (tracks start short).settled
    rw [parsed] at settled
    exact ⟨[], rfl, .nil (settled.reaches.mono (Nat.zero_le _))⟩

theorem shown {read outlines : α → List Outline}
    (draws : Draws tail limit gauge parser parser' least after (Shows read))
    (same : ∀ value, read value = outlines value) :
    Draws tail limit gauge parser parser' least after (Shows outlines) := by
  rw [← funext same]
  exact draws

theorem mono (draws : Draws tail limit gauge parser parser' least after shows)
    (le : lower ≤ limit) : Draws tail lower gauge parser parser' least after shows :=
  ⟨draws.tracks.mono le, fun start value rest short =>
    draws.draws start value rest (Nat.lt_of_lt_of_le short le)⟩

end Draws

theorem Outlined.of_continues {least : Nat} {parser parser' : Parser α}
    {shows : α → List Outline → Prop}
    (run : ∀ depth first, Continues tail limit first (closes (depth + 1)) first 0
      (closes (depth + 1)) [] parser parser' (fun _ => least) (fun _ => closes (depth + 1)) shows) :
    Outlined tail limit least parser parser' shows :=
  fun depth => .of_continues (run depth)

/-! ### Sequences -/

/-- A step that both runs are known to take. -/
theorem DrawsFrom.known {first anchor start rest : Cursor} {gauge₀ : Gauge} {value : α}
    {parser parser' : Parser α} {next next' : α → Parser β} {least : β → Nat} {after : β → Gauge}
    {shows : β → List Outline → Prop} (reads : parser start = .done value rest)
    (reads' : first.Enclosed tail gauge₀ →
      parser' (start.followedBy tail) = .done value (rest.followedBy tail))
    (later : DrawsFrom tail first gauge₀ anchor rest (next value) (next' value) least after shows) :
    DrawsFrom tail first gauge₀ anchor start (parser >>= next) (parser' >>= next') least after
      shows := by
  have begun : (parser >>= next) start = next value rest := by rw [bind_apply, reads]
  refine ⟨⟨?_, fun enclosed => ?_⟩, ?_⟩
  · rw [begun]
    exact later.tracks.settled
  · rw [begun, bind_apply, reads' enclosed]
    exact later.tracks.alike enclosed
  · rw [begun]
    exact later.draws

namespace Continues

variable {first anchor : Cursor} {gauge₀ gauge gauge' : Gauge} {so : Nat} {before : List Outline}
  {parser parser' : Parser α} {next next' : α → Parser β} {least₁ : α → Nat} {after₁ : α → Gauge}
  {least : β → Nat} {after : β → Gauge} {shows : β → List Outline → Prop}
  {read : α → List Outline → Prop}

theorem andThen
    (run : Continues tail limit first gauge₀ anchor so gauge before parser parser' least₁ after₁
      read)
    (later : ∀ value nodes, read value nodes →
      Continues tail limit first gauge₀ anchor (least₁ value) (after₁ value) nodes (next value)
      (next' value) least after shows) :
    Continues tail limit first gauge₀ anchor so gauge before (parser >>= next) (parser' >>= next')
      least after shows := by
  intro start short led drawn
  obtain ⟨tracks, draws⟩ := run start short led drawn
  have further (value : α) (rest : Cursor) (parsed : parser start = .done value rest)
      (led : first.Leads (least₁ value) gauge₀ rest (after₁ value)) :
      DrawsFrom tail first gauge₀ anchor rest (next value) (next' value) least after shows := by
    obtain ⟨nodes, shown, drawnNext⟩ := draws value rest parsed
    exact later value nodes shown rest short led drawnNext
  constructor
  · exact tracks.andThen fun value rest parsed led => (further value rest parsed led).tracks
  · intro value stop parsed
    obtain ⟨result, rest, parsedFirst, parsedNext⟩ := bind_eq_done.mp parsed
    have settled := tracks.settled
    rw [parsedFirst] at settled
    exact (further result rest parsedFirst settled).draws value stop parsedNext

/-- The last part of a construct, on texts that are shorter by what has been read. -/
theorem finish {parser parser' : Parser β} {least₁ : β → Nat} {after₁ : β → Gauge}
    {read : β → List Outline → Prop}
    (draws : Draws tail shorter gauge parser parser' least₁ after₁ read)
    (within : limit ≤ shorter + so)
    (enough : ∀ value, Nat.ble (least value) (so + least₁ value) = true ∧
      after₁ value = after value)
    (shown : ∀ value nodes, read value nodes → shows value (before ++ nodes)) :
    Continues tail limit first gauge₀ anchor so gauge before parser parser' least after shows := by
  intro start short led drawn
  have length := led.reaches.length_le
  refine ⟨.call draws.tracks led (by omega) (fun value => Nat.le_of_ble_eq_true (enough value).1)
    fun value => (enough value).2, fun value rest parsed => ?_⟩
  obtain ⟨nodes, known, drawnNext⟩ := draws.draws start value rest (by omega) parsed
  exact ⟨_, shown value nodes known, drawn.append drawnNext⟩

/-- The last part of a construct of which nothing is drawn before. -/
theorem last {parser parser' : Parser β} {least₁ : β → Nat} {after₁ : β → Gauge}
    (draws : Draws tail limit gauge parser parser' least₁ after₁ shows)
    (enough : ∀ value, Nat.ble (least value) (so + least₁ value) = true ∧
      after₁ value = after value) :
    Continues tail limit first gauge₀ anchor so gauge [] parser parser' least after shows :=
  finish draws (Nat.le_add_right _ _) enough fun _ _ shown => shown

theorem lastConsult {parser parser' : Parser β} {least₁ : β → Nat} {after₁ : β → Gauge}
    (began : Nat.ble 1 so = true)
    (draws : Draws tail limit gauge parser parser' least₁ after₁ shows)
    (enough : ∀ value, Nat.ble (least value) (so + least₁ value) = true ∧
      after₁ value = after value) :
    Continues tail (limit + 1) first gauge₀ anchor so gauge [] parser parser' least after shows :=
  finish draws (Nat.add_le_add_left (Nat.le_of_ble_eq_true began) _) enough fun _ _ shown => shown

/-- A part on texts that are shorter by what has been read, and what follows it. -/
theorem follow (draws : Draws tail shorter gauge parser parser' least₁ after₁ read)
    (within : limit ≤ shorter + so) (later : ∀ value nodes, read value nodes →
      Continues tail limit first gauge₀ anchor (so + least₁ value) (after₁ value) (before ++ nodes)
      (next value) (next' value) least after shows) :
    Continues tail limit first gauge₀ anchor so gauge before (parser >>= next) (parser' >>= next')
      least after shows := by
  have part : Continues tail limit first gauge₀ anchor so gauge before parser parser'
      (fun value => so + least₁ value) after₁
      fun value nodes => ∃ more, read value more ∧ nodes = before ++ more :=
    finish draws within (fun _ => ⟨Nat.ble_self_eq_true _, rfl⟩) fun _ more known => ⟨more, known, rfl⟩
  apply andThen part
  rintro value _ ⟨nodes, known, rfl⟩
  exact later value nodes known

theorem call (draws : Draws tail limit gauge parser parser' least₁ after₁ read)
    (later : ∀ value nodes, read value nodes →
      Continues tail limit first gauge₀ anchor (so + least₁ value) (after₁ value) (before ++ nodes)
      (next value) (next' value) least after shows) :
    Continues tail limit first gauge₀ anchor so gauge before (parser >>= next) (parser' >>= next')
      least after shows :=
  follow draws (Nat.le_add_right _ _) later

theorem bind {read : α → List Outline}
    (draws : Draws tail limit gauge parser parser' least₁ after₁ (Shows read))
    (later : ∀ value, Continues tail limit first gauge₀ anchor (so + least₁ value) (after₁ value)
      (before ++ read value) (next value) (next' value) least after shows) :
    Continues tail limit first gauge₀ anchor so gauge before (parser >>= next) (parser' >>= next')
      least after shows := by
  refine call draws ?_
  rintro value _ rfl
  exact later value

/-- Behind something that has been read, the rules are consulted. -/
theorem consult {read : α → List Outline} (began : Nat.ble 1 so = true)
    (draws : Draws tail limit gauge parser parser' least₁ after₁ (Shows read))
    (later : ∀ value, Continues tail (limit + 1) first gauge₀ anchor (so + least₁ value)
      (after₁ value) (before ++ read value) (next value) (next' value) least after shows) :
    Continues tail (limit + 1) first gauge₀ anchor so gauge before (parser >>= next)
      (parser' >>= next') least after shows := by
  refine follow draws (Nat.add_le_add_left (Nat.le_of_ble_eq_true began) _) ?_
  rintro value _ rfl
  exact later value

theorem look (tracks : Tracks tail limit gauge parser parser' least₁ after₁)
    (later : ∀ value, Continues tail limit first gauge₀ anchor (so + least₁ value) (after₁ value)
      before (next value) (next' value) least after shows) :
    Continues tail limit first gauge₀ anchor so gauge before (parser >>= next) (parser' >>= next')
      least after shows := by
  refine bind (.of_tracks tracks) fun value => ?_
  rw [List.append_nil]
  exact later value

section Words

variable {depth : Nat} {next next' : Unit → Parser β} {word : String}

theorem skip {parser parser' : Parser Unit} {least₁ : Unit → Nat} {after₁ : Unit → Gauge}
    (tracks : Tracks tail limit gauge parser parser' least₁ after₁)
    (later : Continues tail limit first gauge₀ anchor (so + least₁ ()) (after₁ ()) before (next ())
      (next' ()) least after shows) :
    Continues tail limit first gauge₀ anchor so gauge before (parser >>= next) (parser' >>= next')
      least after shows :=
  look tracks fun _ => later

theorem blanks
    (later : Continues tail limit first gauge₀ anchor so (closes (depth + 1)) before (next ())
      (next' ()) least after shows) :
    Continues tail limit first gauge₀ anchor so (closes (depth + 1)) before
      (Parser.blanks >>= next) (Parser.blanks >>= next') least after shows :=
  skip (blanks_balanced depth) later

theorem symbol (steps : Steps word (closes (depth + 1)) gauge')
    (later : Continues tail limit first gauge₀ anchor (so + 1) gauge' before (next ()) (next' ())
      least after shows) :
    Continues tail limit first gauge₀ anchor so (closes (depth + 1)) before
      (Parser.symbol word >>= next) (Parser.symbol word >>= next') least after shows :=
  skip (symbol_tracks steps) later

end Words

theorem here {next next' : Cursor → Parser β}
    (later : ∀ place, first.Leads so gauge₀ place gauge → Drawn anchor before place →
      Continues tail limit first gauge₀ anchor so gauge before (next place)
        (next' (place.followedBy tail)) least after shows) :
    Continues tail limit first gauge₀ anchor so gauge before (Parser.here >>= next)
      (Parser.here >>= next') least after shows := by
  intro start short led drawn
  obtain ⟨tracks, draws⟩ := later start led drawn start short led drawn
  exact ⟨.here tracks, draws⟩

/-- A construct whose first steps depend on the place where it starts. -/
theorem restartAt {next next' : Cursor → Parser β}
    (later : ∀ place, first.rest.length < limit → first.Leads so gauge₀ place gauge →
      DrawsFrom tail first gauge₀ place place (next place) (next' (place.followedBy tail)) least
        after shows) :
    Continues tail limit first gauge₀ anchor so gauge [] (Parser.here >>= next)
      (Parser.here >>= next') least after shows := by
  intro start short led drawn
  obtain ⟨tracks, draws⟩ := later start short led
  refine ⟨.here tracks, fun value rest parsed => ?_⟩
  obtain ⟨nodes, shown, drawnNext⟩ := draws value rest parsed
  exact ⟨nodes, shown, drawnNext.back drawn.reaches⟩

/-- Nothing is drawn before the place where a construct starts. -/
theorem restart {next next' : Cursor → Parser β}
    (later : ∀ place, first.Leads so gauge₀ place gauge →
      Continues tail limit first gauge₀ place so gauge [] (next place)
        (next' (place.followedBy tail)) least after shows) :
    Continues tail limit first gauge₀ anchor so gauge [] (Parser.here >>= next)
      (Parser.here >>= next') least after shows :=
  restartAt fun place short led => later place led place short led (.nil (.refl place))

/-- Going back to a place forgets what was read behind it. -/
theorem resume {place : Cursor} {so' : Nat} {earlier : List Outline}
    {next next' : Unit → Parser β} (led : first.Leads so' gauge₀ place gauge')
    (drawn : Drawn anchor earlier place)
    (later : Continues tail limit first gauge₀ anchor so' gauge' earlier (next ()) (next' ()) least
      after shows) :
    Continues tail limit first gauge₀ anchor so gauge before (Parser.resume place >>= next)
      (Parser.resume (place.followedBy tail) >>= next') least after shows := by
  intro start short _ _
  obtain ⟨tracks, draws⟩ := later place short led drawn
  exact ⟨.resume tracks, draws⟩

theorem pure {value : β} {nodes : List Outline}
    (enough : Nat.ble (least value) so = true ∧ gauge = after value) (shown : shows value nodes)
    (part : nodes.Sublist before) :
    Continues tail limit first gauge₀ anchor so gauge before (Pure.pure value) (Pure.pure value)
      least after shows := by
  intro start _ led drawn
  refine ⟨.pure led (Nat.le_of_ble_eq_true enough.1) enough.2, fun result rest parsed => ?_⟩
  obtain ⟨rfl, rfl⟩ := pure_eq_done.mp parsed
  exact ⟨nodes, shown, drawn.sublist part⟩

/-- The result shows a part of what is drawn. -/
theorem done {outlines : β → List Outline} {value : β}
    (enough : Nat.ble (least value) so = true ∧ gauge = after value)
    (part : (outlines value).Sublist before) :
    Continues tail limit first gauge₀ anchor so gauge before (Pure.pure value) (Pure.pure value)
      least after (Shows outlines) :=
  pure enough rfl part

/-- A construct ends here and is drawn around its parts. -/
theorem close {outlines : β → List Outline} {make : Span → β} {parts : List Outline}
    (enough : ∀ span, Nat.ble (least (make span)) so = true ∧ gauge = after (make span))
    (framed : ∀ span, outlines (make span) = [.node span none parts])
    (part : parts.Sublist before) :
    Continues tail limit first gauge₀ anchor so gauge before
      (do let span ← spanFrom anchor; Pure.pure (make span))
      (do let span ← spanFrom (anchor.followedBy tail); Pure.pure (make span)) least after
      (Shows outlines) := by
  intro start _ led drawn
  refine ⟨.span fun span => .pure led (Nat.le_of_ble_eq_true (enough span).1) (enough span).2,
    fun value rest parsed => ?_⟩
  obtain ⟨span, _, spanned, finished⟩ := bind_eq_done.mp parsed
  obtain ⟨rfl, rfl⟩ := pure_eq_done.mp finished
  cases spanned
  refine ⟨_, rfl, ?_⟩
  rw [framed]
  exact (drawn.sublist part).node

/-- What is drawn gives way to other nodes in the same places. -/
theorem redraw {parser parser' : Parser β} {other : List Outline}
    (drawn : ∀ stop, Drawn anchor before stop → Drawn anchor other stop)
    (later : Continues tail limit first gauge₀ anchor so gauge other parser parser' least after
      shows) :
    Continues tail limit first gauge₀ anchor so gauge before parser parser' least after shows :=
  fun start short led before => later start short led (drawn start before)

theorem given {value : α}
    (later : Continues tail limit first gauge₀ anchor so gauge before (next value) (next' value)
      least after shows) :
    Continues tail limit first gauge₀ anchor so gauge before (Pure.pure value >>= next)
      (Pure.pure value >>= next') least after shows := by
  intro start short led drawn
  obtain ⟨tracks, draws⟩ := later start short led drawn
  exact ⟨.given tracks, draws⟩

theorem weaken {parser parser' : Parser β} {more : Nat}
    (later : Continues tail limit first gauge₀ anchor so gauge before parser parser' least after
      shows) (le : Nat.ble so more = true) :
    Continues tail limit first gauge₀ anchor more gauge before parser parser' least after shows :=
  fun start short led => later start short (led.mono (Nat.le_of_ble_eq_true le))

theorem of_fails {parser parser' : Parser β} (fails : parser.Fails)
    (tracks : ∀ start, first.Leads so gauge₀ start gauge →
      TracksFrom tail first gauge₀ start parser parser' least after) :
    Continues tail limit first gauge₀ anchor so gauge before parser parser' least after shows :=
  fun start _ led _ => ⟨tracks start led, fun value rest parsed =>
    absurd parsed (fails start value rest)⟩

theorem fail : Continues tail limit first gauge₀ anchor so gauge before (Parser.fail : Parser β)
    Parser.fail least after shows :=
  of_fails fail_fails fun _ led => .fail led

theorem failSaying (message : String) : Continues tail limit first gauge₀ anchor so gauge before
    (Parser.failSaying message : Parser β) (Parser.failSaying message) least after shows :=
  of_fails (failSaying_fails message) fun _ led => .failSaying message led

theorem failSaying_bind (message : String) : Continues tail limit first gauge₀ anchor so gauge
    before (Parser.failSaying message >>= next) (Parser.failSaying message >>= next') least after
    shows :=
  of_fails ((failSaying_fails message).bind next) fun _ led => .failSaying_bind message led

theorem haltSaying (message : String) : Continues tail limit first gauge₀ anchor so gauge before
    (Parser.haltSaying message : Parser β) (Parser.haltSaying message) least after shows :=
  of_fails (haltSaying_fails message) fun _ led => .haltSaying message led

/-- A branch that both runs choose alike. -/
theorem agree {answer' : Bool} {yes yes' no no' : Parser β}
    (same : first.Enclosed tail gauge₀ → answer' = answer)
    (ifYes : Continues tail limit first gauge₀ anchor so gauge before yes yes' least after shows)
    (ifNo : Continues tail limit first gauge₀ anchor so gauge before no no' least after shows) :
    Continues tail limit first gauge₀ anchor so gauge before (if answer = true then yes else no)
      (if answer' = true then yes' else no') least after shows := by
  intro start short led drawn
  have chosenYes := ifYes start short led drawn
  have chosenNo := ifNo start short led drawn
  refine ⟨.agree same chosenYes.tracks chosenNo.tracks, ?_⟩
  cases answer with
  | true => exact chosenYes.draws
  | false => exact chosenNo.draws

/-- A part that is read in one of two ways. -/
theorem choose {yes yes' no no' : Parser α} {least₁ : Nat} {read : α → List Outline}
    (ifYes : Draws tail limit gauge yes yes' (fun _ => least₁) (fun _ => gauge') (Shows read))
    (ifNo : Draws tail limit gauge no no' (fun _ => least₁) (fun _ => gauge') (Shows read))
    (later : ∀ value, Continues tail limit first gauge₀ anchor (so + least₁) gauge'
      (before ++ read value) (next value) (next' value) least after shows) :
    Continues tail limit first gauge₀ anchor so gauge before
      (if answer = true then yes >>= next else no >>= next)
      (if answer = true then yes' >>= next' else no' >>= next') least after shows := by
  cases answer with
  | true => exact bind ifYes later
  | false => exact bind ifNo later

end Continues

/-- A construct that starts behind the blanks. -/
theorem Outlined.of_start {least : Nat} {next next' : Cursor → Parser α}
    {shows : α → List Outline → Prop}
    (run : ∀ depth first start, Continues tail limit first (closes (depth + 1)) start 0
      (closes (depth + 1)) [] (next start) (next' (start.followedBy tail)) (fun _ => least)
      (fun _ => closes (depth + 1)) shows) :
    Outlined tail limit least (do blanks; next (← here)) (do blanks; next' (← here)) shows :=
  .of_continues fun depth first => .blanks (.restart fun start _ => run depth first start)

/-! ### Combinators -/

section Combinators

variable {gauge gauge' : Gauge} {parser parser' second second' : Parser α} {least : α → Nat}
  {after : α → Gauge} {read : α → List Outline} {shows : α → List Outline → Prop}

theorem orElse_draws (draws : Draws tail limit gauge parser parser' least after shows)
    (drawsSecond : Draws tail limit gauge second second' least after shows) :
    Draws tail limit gauge (parser <|> second) (parser' <|> second') least after shows := by
  refine ⟨orElse_tracks draws.tracks drawsSecond.tracks, fun start value rest short parsed => ?_⟩
  rcases orElse_eq_done.mp parsed with parsed | ⟨_, parsed⟩
  · exact draws.draws start value rest short parsed
  · exact drawsSecond.draws start value rest short parsed

theorem map_draws {f : α → β} {least : Nat} {after : Gauge} {shows' : β → List Outline → Prop}
    (draws : Draws tail limit gauge parser parser' (fun _ => least) (fun _ => after) shows)
    (shown : ∀ value nodes, shows value nodes → shows' (f value) nodes) :
    Draws tail limit gauge (f <$> parser) (f <$> parser') (fun _ => least) (fun _ => after)
      shows' := by
  refine ⟨map_tracks draws.tracks, fun start value rest short parsed => ?_⟩
  obtain ⟨result, parsedFirst, rfl⟩ := map_eq_done.mp parsed
  obtain ⟨nodes, known, drawn⟩ := draws.draws start result rest short parsedFirst
  exact ⟨nodes, shown result nodes known, drawn⟩

def WhenPresent (shows : α → List Outline → Prop) : Option α → List Outline → Prop
  | none, nodes => nodes = []
  | some value, nodes => shows value nodes

theorem part_draws {part : Parser α → Parser (Option α)} (known : part = probe ∨ part = optional)
    (draws : Draws tail limit gauge parser parser' least after shows) :
    Draws tail limit gauge (part parser) (part parser') (fun found => found.elim 0 least)
      (fun found => found.elim gauge after) (WhenPresent shows) := by
  refine ⟨part_tracks draws.tracks known, fun start value rest short parsed => ?_⟩
  cases reply : parser start with
  | done value' rest' | miss fault | halt fault =>
    rcases known with rfl | rfl <;> simp only [probe, optional, reply] at parsed <;> cases parsed
    all_goals first
      | exact draws.draws start _ _ short reply
      | exact ⟨[], rfl, .nil (.refl _)⟩

theorem context_draws (label : String)
    (draws : Draws tail limit gauge parser parser' least after shows) :
    Draws tail limit gauge (context label parser) (context label parser') least after shows := by
  refine ⟨context_tracks label draws.tracks, fun start value rest short parsed => ?_⟩
  exact draws.draws start value rest short (context_eq_done.mp parsed)

@[simp] def Turn.outlines (read : α → List Outline) : Turn α → List Outline
  | .stop | .pass => []
  | .last item | .more item => read item

theorem collect_draws {stops : Gauge} {turn turn' : Parser (Turn α)}
    (draws : Draws tail limit gauge turn turn' Turn.least (Turn.gauge gauge stops)
      (Shows (Turn.outlines read))) (enough : limit ≤ bound) (enough' : limit ≤ bound') :
    Draws tail limit gauge (collect turn bound) (collect turn' bound') (fun _ => 0)
      (fun _ => stops) (Shows fun items => items.flatMap read) := by
  refine ⟨collect_tracks draws.tracks enough enough', ?_⟩
  clear enough
  induction bound with
  | zero =>
    intro start value rest _ parsed
    cases parsed
  | succ bound ih =>
    intro start value rest short parsed
    obtain ⟨step, middle, stepped, continued⟩ := bind_eq_done.mp parsed
    obtain ⟨_, rfl, drawn⟩ := draws.draws start step middle short stepped
    have length := drawn.reaches.length_le
    cases step with
    | stop | last item =>
      obtain ⟨rfl, rfl⟩ := pure_eq_done.mp continued
      exact ⟨_, rfl, by simpa using drawn⟩
    | pass =>
      obtain ⟨_, rfl, drawnNext⟩ := ih middle value rest (by omega) continued
      exact ⟨_, rfl, drawnNext.back drawn.reaches⟩
    | more item =>
      obtain ⟨items, _, collected, finished⟩ := bind_eq_done.mp continued
      obtain ⟨rfl, rfl⟩ := pure_eq_done.mp finished
      obtain ⟨_, rfl, drawnNext⟩ := ih middle items _ (by omega) collected
      exact ⟨_, rfl, by simpa using drawn.append drawnNext⟩

/-- A value that is replaced as long as a step gives a new one.  Each value shows what is drawn
up to its step. -/
theorem Continues.iterate {first anchor : Cursor} {gauge₀ : Gauge} {so : Nat}
    {before : List Outline} {step step' : α → Parser (Option α)} (began : Nat.ble 1 so = true)
    (tracks : ∀ value, Tracks tail limit gauge (step value) (step' value) whenSome fun _ => gauge)
    {bound bound' : Nat} (enough : limit ≤ bound) (enough' : limit ≤ bound') {value : α}
    (shown : before = read value)
    (draws : ∀ value start found rest, start.rest.length < limit →
      Drawn anchor (read value) start → step value start = .done found rest →
        Drawn anchor (found.elim (read value) read) rest) :
    Continues tail (limit + 1) first gauge₀ anchor so gauge before (iterate step bound value)
      (iterate step' bound' value) (fun _ => 1) (fun _ => gauge) (Shows read) := by
  subst shown
  intro start short led drawn
  have length := led.reaches.length_le
  have some := Nat.le_of_ble_eq_true began
  refine ⟨.call (iterate_tracks tracks enough enough' value) led (by omega) (fun _ => by omega)
    fun _ => rfl, fun result rest parsed => ⟨_, rfl, ?_⟩⟩
  have inside : start.rest.length < limit := by omega
  clear led length enough
  induction bound generalizing value start with
  | zero => cases parsed
  | succ bound ih =>
    obtain ⟨found, middle, stepped, continued⟩ := bind_eq_done.mp parsed
    have drawnNext := draws value start found middle inside drawn stepped
    have settled := (tracks value start inside).settled
    rw [stepped] at settled
    have length := settled.reaches.length_le
    cases found with
    | none =>
      obtain ⟨rfl, rfl⟩ := pure_eq_done.mp continued
      exact drawnNext
    | some next => exact ih middle drawnNext continued (by omega)

/-- A recognized text is a node without parts. -/
theorem recognize_draws {parser parser' : Parser Unit} {after : Unit → Gauge}
    (tracks : Tracks tail limit gauge parser parser' (fun _ => 1) after) :
    Draws tail limit gauge (recognize parser) (recognize parser') (fun _ => 1)
      (fun _ => after ()) (Shows fun found => [.node found.2 (some found.1) []]) := by
  refine ⟨recognize_tracks tracks, fun start value rest short parsed => ?_⟩
  obtain ⟨_, _, ⟨⟩, parsed⟩ := bind_eq_done.mp parsed
  obtain ⟨_, stop, read, parsed⟩ := bind_eq_done.mp parsed
  obtain ⟨_, _, ⟨⟩, parsed⟩ := bind_eq_done.mp parsed
  obtain ⟨rfl, rfl⟩ := pure_eq_done.mp parsed
  have settled := (tracks start short).settled
  rw [read] at settled
  obtain ⟨characters, enough, text, offset⟩ := settled.reaches
  refine ⟨_, rfl, ?_⟩
  dsimp only
  rw [Cursor.Reaches.textTo_eq text offset]
  exact .word (List.ne_nil_of_length_pos enough) text offset

end Combinators

/-! ### Branches -/

namespace Continues

variable {first anchor : Cursor} {gauge₀ gauge gauge' : Gauge} {so : Nat} {before : List Outline}
  {parser parser' : Parser α} {least₁ : α → Nat} {after₁ : α → Gauge} {least : β → Nat}
  {after : β → Gauge} {shows : β → List Outline → Prop}

/-- A part that may be absent: any failure leaves the place. -/
theorem probe {read : α → List Outline → Prop} {next next' : Option α → Parser β}
    (draws : Draws tail limit gauge parser parser' least₁ after₁ read)
    (present : ∀ value nodes, read value nodes →
      Continues tail limit first gauge₀ anchor (so + least₁ value) (after₁ value) (before ++ nodes)
        (next (some value)) (next' (some value)) least after shows)
    (absent : Continues tail limit first gauge₀ anchor so gauge before (next none) (next' none)
      least after shows) :
    Continues tail limit first gauge₀ anchor so gauge before (Parser.probe parser >>= next)
      (Parser.probe parser' >>= next') least after shows := by
  refine call (part_draws (.inl rfl) draws) fun found nodes shown => ?_
  cases found with
  | none =>
    cases shown
    rw [List.append_nil]
    exact absent
  | some value => exact present value nodes shown

theorem accepts {least₁ : Unit → Nat} {after₁ : Unit → Gauge} {parser parser' : Parser Unit}
    {next next' : Bool → Parser β} (tracks : Tracks tail limit gauge parser parser' least₁ after₁)
    (present : Continues tail limit first gauge₀ anchor (so + least₁ ()) (after₁ ()) before
      (next true) (next' true) least after shows)
    (absent : Continues tail limit first gauge₀ anchor so gauge before (next false) (next' false)
      least after shows) :
    Continues tail limit first gauge₀ anchor so gauge before (Parser.accepts parser >>= next)
      (Parser.accepts parser' >>= next') least after shows := by
  apply look (accepts_tracks tracks)
  intro found
  cases found with
  | true => exact present
  | false => exact absent

/-- A part that is read in one of two ways, as a word stands before it or not. -/
theorem acceptsThen {word word' : Parser Unit} {least₁ : Nat} {yes yes' no no' : Parser α}
    {gauge₂ : Gauge} {read : α → List Outline} {next next' : α → Parser β}
    (tracks : Tracks tail limit gauge word word' (fun _ => least₁) fun _ => gauge')
    (ifYes : Draws tail limit gauge' yes yes' (fun _ => 0) (fun _ => gauge₂) (Shows read))
    (ifNo : Draws tail limit gauge no no' (fun _ => 0) (fun _ => gauge₂) (Shows read))
    (later : ∀ value, Continues tail limit first gauge₀ anchor so gauge₂ (before ++ read value)
      (next value) (next' value) least after shows) :
    Continues tail limit first gauge₀ anchor so gauge before
      (Parser.accepts word >>= fun answer => if answer = true then yes >>= next else no >>= next)
      (Parser.accepts word' >>= fun answer =>
        if answer = true then yes' >>= next' else no' >>= next') least after shows := by
  refine accepts tracks ?_ (bind ifNo later)
  refine bind ifYes fun value start short led => later value start short (led.mono ?_)
  exact Nat.le_add_right _ _

theorem accept {word : String} (steps : Steps word gauge gauge') {next next' : Bool → Parser β}
    (present : Continues tail limit first gauge₀ anchor (so + 1) gauge' before (next true)
      (next' true) least after shows)
    (absent : Continues tail limit first gauge₀ anchor so gauge before (next false) (next' false)
      least after shows) :
    Continues tail limit first gauge₀ anchor so gauge before (Parser.accept word >>= next)
      (Parser.accept word >>= next') least after shows := by
  apply look (accept_tracks steps)
  intro found
  cases found with
  | true => exact present
  | false => exact absent

end Continues

/-! ### Optional parts and lists -/

section Parts

variable {parser parser' : Parser α} {least : Nat} {read : α → List Outline}

theorem absent_outlined {outlines : Option α → List Outline} (nothing : outlines none = []) :
    Outlined tail limit 0 (pure none) (pure none) (Shows outlines) :=
  .of_continues fun _ _ => .done ⟨rfl, rfl⟩ (by simp [nothing])

theorem Outlined.mono {shows : α → List Outline → Prop} {fewer : Nat}
    (outlined : Outlined tail limit least parser parser' shows) (le : fewer ≤ least)
    (low : lower ≤ limit) : Outlined tail lower fewer parser parser' shows :=
  fun depth => ⟨outlined.balanced.mono le low depth, ((outlined depth).mono low).draws⟩

theorem present_outlined {outlines : Option α → List Outline}
    (present : ∀ value, outlines (some value) = read value)
    (outlined : Outlined tail limit least parser parser' (Shows read)) :
    Outlined tail limit 0 (some <$> parser) (some <$> parser') (Shows outlines) := by
  intro depth
  refine map_draws (outlined.mono (Nat.zero_le _) (Nat.le_refl _) depth) ?_
  rintro value _ rfl
  exact (present value).symm

theorem optional_outlined {shows : α → List Outline → Prop}
    (outlined : Outlined tail limit least parser parser' shows) :
    Outlined tail limit 0 (optional parser) (optional parser') (WhenPresent shows) :=
  fun depth => ⟨skipOptional_tracks (outlined depth).tracks,
    (part_draws (.inr rfl) (outlined depth)).draws⟩

theorem separatedTurn_outlined (balanced : Balanced tail limit 1 separator separator')
    (outlined : Outlined tail limit 1 parser parser' (Shows read)) (depth : Nat) :
    Draws tail limit (closes (depth + 1)) (separatedTurn separator parser)
      (separatedTurn separator' parser') Turn.least
      (Turn.gauge (closes (depth + 1)) (closes (depth + 1))) (Shows (Turn.outlines read)) := by
  have item : Outlined tail limit 1 (do separator; parser) (do separator'; parser')
      (Shows read) := by
    apply Outlined.of_continues
    intro depth first
    apply Continues.skip (balanced depth)
    exact .last (outlined depth) fun _ => ⟨rfl, rfl⟩
  apply Draws.of_continues
  intro first
  apply Continues.call (part_draws (.inr rfl) (item depth))
  intro found nodes shown
  cases found with
  | none => exact .done ⟨rfl, rfl⟩ (by simp)
  | some value =>
    cases shown
    exact .done ⟨rfl, rfl⟩ (by simp)

theorem separated_outlined (balanced : Balanced tail (limit + 1) 1 separator separator')
    (outlined : Outlined tail (limit + 1) 1 parser parser' (Shows read)) (enough : limit ≤ bound)
    (enough' : limit ≤ bound') :
    Outlined tail (limit + 1) 1 (separated bound separator parser)
      (separated bound' separator' parser') (Shows fun items => items.flatMap read) := by
  have turn (depth : Nat) :=
    (separatedTurn_outlined balanced outlined depth).mono (Nat.le_succ limit)
  apply Outlined.of_continues
  intro depth first
  apply Continues.bind (outlined depth)
  intro value
  apply Continues.consult rfl (collect_draws (turn depth) enough enough')
  intro items
  exact .done ⟨rfl, rfl⟩ (by simp)

end Parts

end Parser

end Unclosed.Grammar
