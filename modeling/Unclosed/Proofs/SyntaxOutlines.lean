import Unclosed.Syntax.File

/-!
Syntax trees as trees of ranges.  The outline of a node has the outlines of its
parts in source order below it.  It is faithful to a source text when its ranges
lie in the text one inside the other, those of the parts of a node one behind
the other, and when names and literals stand where their ranges say.
-/

namespace Unclosed

/-- The range of a node, the text of a name or literal, and the parts. -/
inductive Outline where
  | node (span : Span) (text : Option String) (parts : List Outline)

def Outline.span : Outline → Span
  | node span _ _ => span

@[simp] theorem Outline.span_node (span : Span) (text : Option String) (parts : List Outline) :
    (Outline.node span text parts).span = span :=
  rfl

def Span.Reads (source : String) (span : Span) (word : String) : Prop :=
  ∃ before after, source = before ++ word ++ after ∧ before.utf8ByteSize = span.start
    ∧ (before ++ word).utf8ByteSize = span.stop

inductive Outline.Faithful (source : String) : Outline → Prop where
  | node {span : Span} {text : Option String} {parts : List Outline}
      (le : span.start ≤ span.stop) (fits : span.stop ≤ source.utf8ByteSize)
      (startValid : String.Pos.Raw.IsValid source ⟨span.start⟩)
      (stopValid : String.Pos.Raw.IsValid source ⟨span.stop⟩)
      (reads : ∀ word, text = some word → span.Reads source word)
      (inside : ∀ part ∈ parts, span.start ≤ part.span.start ∧ part.span.stop ≤ span.stop)
      (apart : parts.Pairwise fun first second => first.span.stop ≤ second.span.start)
      (faithful : ∀ part ∈ parts, part.Faithful source) : Faithful source (.node span text parts)

def Outline.parts : Outline → List Outline
  | node _ _ parts => parts

@[simp] theorem Outline.parts_node (span : Span) (text : Option String) (parts : List Outline) :
    (Outline.node span text parts).parts = parts :=
  rfl

namespace Outline.Faithful

variable {source : String} {node : Outline}

theorem le (faithful : node.Faithful source) : node.span.start ≤ node.span.stop := by
  cases faithful with
  | node le => exact le

theorem fits (faithful : node.Faithful source) : node.span.stop ≤ source.utf8ByteSize := by
  cases faithful with
  | node _ fits => exact fits

theorem startValid (faithful : node.Faithful source) :
    String.Pos.Raw.IsValid source ⟨node.span.start⟩ := by
  cases faithful with
  | node _ _ startValid => exact startValid

theorem stopValid (faithful : node.Faithful source) :
    String.Pos.Raw.IsValid source ⟨node.span.stop⟩ := by
  cases faithful with
  | node _ _ _ stopValid => exact stopValid

end Outline.Faithful

/-- No name or literal of the outline is empty. -/
inductive Outline.Worded : Outline → Prop where
  | node {span : Span} {text : Option String} {parts : List Outline} (worded : text ≠ some "")
      (wordedParts : ∀ part ∈ parts, part.Worded) : Worded (.node span text parts)

structure Outline.Sound (source : String) (node : Outline) : Prop where
  faithful : node.Faithful source
  worded : node.Worded

/-! ### Rows of nodes -/

/-- Sound nodes in order between two offsets. -/
structure Outline.Row (source : String) (low : Nat) (nodes : List Outline) (high : Nat) :
    Prop where
  le : low ≤ high
  inside : ∀ node ∈ nodes, low ≤ node.span.start ∧ node.span.stop ≤ high
  apart : nodes.Pairwise fun first second => first.span.stop ≤ second.span.start
  sound : ∀ node ∈ nodes, node.Sound source

namespace Outline

variable {source : String} {low middle high : Nat} {first second : List Outline}
  {node left right : Outline}

namespace Row

theorem faithful (row : Row source low first high) : ∀ node ∈ first, node.Faithful source :=
  fun node member => (row.sound node member).faithful

theorem nil (le : low ≤ high) : Row source low [] high := ⟨le, by simp, .nil, by simp⟩

theorem append (before : Row source low first middle) (after : Row source middle second high) :
    Row source low (first ++ second) high where
  le := Nat.le_trans before.le after.le
  inside := by
    have := before.le
    have := after.le
    intro node member
    rcases List.mem_append.mp member with member | member
    · have := before.inside node member
      omega
    · have := after.inside node member
      omega
  apart := by
    refine List.pairwise_append.mpr ⟨before.apart, after.apart, ?_⟩
    intro earlier inFirst later inSecond
    exact Nat.le_trans (before.inside earlier inFirst).2 (after.inside later inSecond).1
  sound := by
    intro node member
    rcases List.mem_append.mp member with member | member
    · exact before.sound node member
    · exact after.sound node member

theorem sublist (row : Row source low second high) (part : first.Sublist second) :
    Row source low first high where
  le := row.le
  inside := fun node member => row.inside node (part.subset member)
  apart := row.apart.sublist part
  sound := fun node member => row.sound node (part.subset member)

theorem single (sound : node.Sound source) :
    Row source node.span.start [node] node.span.stop where
  le := sound.faithful.le
  inside := by simp
  apart := List.pairwise_singleton _ _
  sound := by simpa using sound

theorem widen (row : Row source middle first high) {low' high' : Nat} (left : low' ≤ middle)
    (right : high ≤ high') : Row source low' first high' := by
  simpa using (nil left).append (row.append (nil right))

section

variable (row : Row source low (first ++ node :: second) high)
include row

/-- A row falls apart behind each of its nodes. -/
theorem split :
    Row source low (first ++ [node]) node.span.stop ∧ Row source node.span.stop second high := by
  have apart := List.pairwise_append.mp row.apart
  have later := List.pairwise_cons.mp apart.2.1
  have member : node ∈ first ++ node :: second := by simp
  have faithful := row.faithful node member
  have inside := row.inside node member
  have ordered := faithful.le
  have start : Row source low (first ++ [node]) high :=
    row.sublist ((List.Sublist.refl first).append (by simp))
  constructor
  · refine ⟨by omega, ?_, start.apart, start.sound⟩
    intro other inStart
    refine ⟨(start.inside other inStart).1, ?_⟩
    rcases List.mem_append.mp inStart with earlier | same
    · have := apart.2.2 other earlier node (by simp)
      omega
    · exact Nat.le_of_eq (by rw [List.mem_singleton.mp same])
  · refine ⟨inside.2, ?_, later.2, ?_⟩
    · intro other inSecond
      exact ⟨later.1 other inSecond, (row.inside other (by simp [inSecond])).2⟩
    · intro other inSecond
      exact row.sound other (by simp [inSecond])

omit row in
theorem tighten (row : Row source low (node :: second) high) :
    Row source node.span.start (node :: second) high := by
  have whole : Row source low ([] ++ node :: second) high := row
  exact (single (row.sound node (by simp))).append whole.split.2

theorem replace {other : Outline} (sound : other.Sound source) (same : other.span = node.span) :
    Row source low (first ++ other :: second) high where
  le := row.le
  inside := by
    intro member found
    rcases List.mem_append.mp found with before | after
    · exact row.inside member (by simp [before])
    · rcases List.mem_cons.mp after with rfl | behind
      · rw [same]
        exact row.inside node (by simp)
      · exact row.inside member (by simp [behind])
  apart := by
    have apart := List.pairwise_append.mp row.apart
    have later := List.pairwise_cons.mp apart.2.1
    refine List.pairwise_append.mpr ⟨apart.1, List.pairwise_cons.mpr ⟨?_, later.2⟩, ?_⟩
    · rw [same]
      exact later.1
    · intro earlier before behind after
      rcases List.mem_cons.mp after with rfl | after
      · rw [same]
        exact apart.2.2 earlier before node (by simp)
      · exact apart.2.2 earlier before behind (by simp [after])
  sound := by
    intro member found
    rcases List.mem_append.mp found with before | after
    · exact row.sound member (by simp [before])
    · rcases List.mem_cons.mp after with rfl | behind
      · exact sound
      · exact row.sound member (by simp [behind])

omit row in
theorem parts (sound : node.Sound source) :
    Row source node.span.start node.parts node.span.stop := by
  obtain ⟨⟨le, _, _, _, _, inside, apart, faithful⟩, ⟨_, worded⟩⟩ := sound
  exact ⟨le, inside, apart, fun part member => ⟨faithful part member, worded part member⟩⟩

theorem unfold : Row source low (first ++ node.parts ++ second) high := by
  obtain ⟨start, rest⟩ := row.split
  have sound := row.sound node (by simp)
  cases first with
  | nil =>
    exact ((parts sound).widen (start.inside node (by simp)).1 (Nat.le_refl _)).append rest
  | cons head first =>
    have before : Row source low (head :: first) node.span.start := by
      have apart := List.pairwise_append.mp start.apart
      have earlier := start.sublist (List.sublist_append_left (head :: first) [node])
      refine ⟨?_, ?_, earlier.apart, earlier.sound⟩
      · have := earlier.inside head (by simp)
        have := (earlier.faithful head (by simp)).le
        have := apart.2.2 head (by simp) node (by simp)
        omega
      · intro other member
        exact ⟨(earlier.inside other member).1, apart.2.2 other member node (by simp)⟩
    exact (before.append (parts sound)).append rest

end

theorem unfoldAll (row : Row source low first high) :
    Row source low (first.flatMap Outline.parts) high := by
  induction first generalizing low with
  | nil => exact nil row.le
  | cons node later ih =>
    have whole : Row source low ([] ++ node :: later) high := row
    obtain ⟨start, rest⟩ := whole.split
    exact ((parts (row.sound node (by simp))).widen (start.inside node (by simp)).1
      (Nat.le_refl _)).append (ih rest)

theorem enclosed {span : Span} (row : Row source span.start first span.stop)
    (fits : span.stop ≤ source.utf8ByteSize)
    (startValid : String.Pos.Raw.IsValid source ⟨span.start⟩)
    (stopValid : String.Pos.Raw.IsValid source ⟨span.stop⟩) :
    (Outline.node span none first).Sound source := by
  refine ⟨.node row.le fits startValid stopValid ?_ row.inside row.apart row.faithful,
    .node (by simp) fun part member => (row.sound part member).worded⟩
  intro word absent
  cases absent

end Row

namespace Faithful

/-- A node from the start of one node to the end of a later one. -/
theorem merge (first : left.Faithful source) (second : right.Faithful source)
    (order : left.span.stop ≤ right.span.start) {parts : List Outline}
    (row : Row source left.span.start parts right.span.stop) :
    (Outline.node (left.span.merge right.span) none parts).Sound source := by
  have leftLe := first.le
  have rightLe := second.le
  have range : left.span.merge right.span = ⟨left.span.start, right.span.stop⟩ := by
    rw [Span.merge, Nat.min_eq_left (by omega), Nat.max_eq_right (by omega)]
  rw [range]
  exact row.enclosed second.fits first.startValid second.stopValid

/-- A node over the same range with other parts. -/
theorem refill (faithful : node.Faithful source) {parts : List Outline}
    (row : Row source node.span.start parts node.span.stop) :
    (Outline.node node.span none parts).Sound source :=
  row.enclosed faithful.fits faithful.startValid faithful.stopValid

end Faithful

namespace Row

theorem between (row : Row source low (left :: first ++ [right]) high) :
    Row source left.span.start (left :: first ++ [right]) right.span.stop :=
  (split (tighten row)).1

/-- A node from the first node of a row to the last one. -/
theorem merged (row : Row source low (left :: first ++ [right]) high) {parts : List Outline}
    (inner : Row source left.span.start parts right.span.stop) :
    Row source low [.node (left.span.merge right.span) none parts] high := by
  have leftFaithful := row.faithful left (by simp)
  have rightFaithful := row.faithful right (by simp)
  have leftInside := row.inside left (by simp)
  have rightInside := row.inside right (by simp)
  have leftLe := leftFaithful.le
  have rightLe := rightFaithful.le
  have order : left.span.stop ≤ right.span.start :=
    (List.pairwise_append.mp row.apart).2.2 left (by simp) right (by simp)
  apply (single (leftFaithful.merge rightFaithful order inner)).widen
  · simp only [Outline.span_node, Span.merge]
    omega
  · simp only [Outline.span_node, Span.merge]
    omega

end Row

end Outline

/-! ### Outlines of syntax trees -/

def Ident.outline (ident : Ident) : Outline := .node ident.span (some ident.name) []

mutual

def Expr.outline : Expr → Outline
  | .ident name => name.outline
  | .literal span _ text => .node span (some text) []
  | .composite span type elements =>
    .node span none (optionalOutlines type ++ exprOutlines elements)
  | .keyValue span key value => .node span none [key.outline, value.outline]
  | .function span signature body => .node span none [signature.outline, body.outline]
  | .paren span operand => .node span none [operand.outline]
  | .selector span operand name => .node span none [operand.outline, name.outline]
  | .index span operand index => .node span none [operand.outline, index.outline]
  | .slice span operand low high max =>
    .node span none (operand.outline :: (optionalOutlines low ++ optionalOutlines high
      ++ optionalOutlines max))
  | .typeAssert span operand type => .node span none (operand.outline :: optionalTypeOutlines type)
  | .call span callee arguments _ => .node span none (callee.outline :: exprOutlines arguments)
  | .star span operand => .node span none [operand.outline]
  | .unary span _ operand => .node span none [operand.outline]
  | .binary span _ left right => .node span none [left.outline, right.outline]
  | .type type => type.outline

def optionalOutlines : Option Expr → List Outline
  | none => []
  | some expr => [expr.outline]

def exprOutlines : List Expr → List Outline
  | [] => []
  | expr :: later => expr.outline :: exprOutlines later

def TypeExpr.outline : TypeExpr → Outline
  | .name span ident => .node span none [ident.outline]
  | .qualified span package name => .node span none [package.outline, name.outline]
  | .pointer span elem => .node span none [elem.outline]
  | .slice span elem => .node span none [elem.outline]
  | .array span length elem => .node span none (optionalOutlines length ++ [elem.outline])
  | .map span key value => .node span none [key.outline, value.outline]
  | .chan span _ elem => .node span none [elem.outline]
  | .func span signature => .node span none [signature.outline]
  | .struct span fields => .node span none (fieldOutlines fields)
  | .interface span elements => .node span none (interfaceOutlines elements)
  | .ellipsis span elem => .node span none [elem.outline]

def optionalTypeOutlines : Option TypeExpr → List Outline
  | none => []
  | some type => [type.outline]

def Field.outline : Field → Outline
  | .mk names type _ span => .node span none (names.map Ident.outline ++ [type.outline])

def fieldOutlines : List Field → List Outline
  | [] => []
  | field :: later => field.outline :: fieldOutlines later

def Signature.outline : Signature → Outline
  | .mk params results span => .node span none (fieldOutlines params ++ fieldOutlines results)

def interfaceOutlines : List InterfaceElement → List Outline
  | [] => []
  | .method name signature :: later =>
    name.outline :: signature.outline :: interfaceOutlines later
  | .embedded type :: later => type.outline :: interfaceOutlines later

def Block.outline : Block → Outline
  | .mk stmts span => .node span none (stmtOutlines stmts)

def stmtOutlines : List Stmt → List Outline
  | [] => []
  | stmt :: later => stmt.outline :: stmtOutlines later

def Stmt.outline : Stmt → Outline
  | .expr span expr => .node span none [expr.outline]
  | .assign span targets _ values => .node span none (exprOutlines targets ++ exprOutlines values)
  | .incDec span expr _ => .node span none [expr.outline]
  | .send span channel value => .node span none [channel.outline, value.outline]
  | .decl span decl => .node span none decl.outlines
  | .returns span results => .node span none (exprOutlines results)
  | .defer span expr => .node span none [expr.outline]
  | .go span expr => .node span none [expr.outline]
  | .conditional span init condition body alternative =>
    .node span none (optionalStmtOutlines init ++ [condition.outline, body.outline]
      ++ optionalStmtOutlines alternative)
  | .loop span init condition post body =>
    .node span none (optionalStmtOutlines init ++ optionalOutlines condition
      ++ optionalStmtOutlines post ++ [body.outline])
  | .range span key value _ expr body =>
    .node span none (optionalOutlines key ++ optionalOutlines value ++ [expr.outline, body.outline])
  | .switch span init tag clauses =>
    .node span none (optionalStmtOutlines init ++ optionalOutlines tag ++ clauseOutlines clauses)
  | .typeSwitch span init binding guard clauses =>
    .node span none (optionalStmtOutlines init ++ binding.toList.map Ident.outline
      ++ [guard.outline] ++ clauseOutlines clauses)
  | .block body => body.outline
  | .branch span _ label => .node span none (label.toList.map Ident.outline)
  | .labeled span label stmt => .node span none [label.outline, stmt.outline]
  | .empty span => .node span none []

def optionalStmtOutlines : Option Stmt → List Outline
  | none => []
  | some stmt => [stmt.outline]

def CaseClause.outline : CaseClause → Outline
  | .mk exprs body span => .node span none (exprOutlines exprs ++ stmtOutlines body)

def clauseOutlines : List CaseClause → List Outline
  | [] => []
  | clause :: later => clause.outline :: clauseOutlines later

def Decl.outlines : Decl → List Outline
  | .var specs | .const specs => valueSpecOutlines specs
  | .type specs => typeSpecOutlines specs

def ValueSpec.outline : ValueSpec → Outline
  | .mk names type values _ span =>
    .node span none (names.map Ident.outline ++ optionalTypeOutlines type ++ exprOutlines values)

def valueSpecOutlines : List ValueSpec → List Outline
  | [] => []
  | spec :: later => spec.outline :: valueSpecOutlines later

def TypeSpec.outline : TypeSpec → Outline
  | .mk name _ type span => .node span none [name.outline, type.outline]

def typeSpecOutlines : List TypeSpec → List Outline
  | [] => []
  | spec :: later => spec.outline :: typeSpecOutlines later

end

attribute [simp] Expr.outline optionalOutlines exprOutlines optionalTypeOutlines Field.outline
  fieldOutlines interfaceOutlines Stmt.outline optionalStmtOutlines

def ImportSpec.outline (spec : ImportSpec) : Outline :=
  .node spec.span none (spec.rename.toList.map Ident.outline)

def FuncDecl.outline (func : FuncDecl) : Outline :=
  .node func.span none (func.receiver.toList.map Field.outline
    ++ [func.name.outline, func.signature.outline] ++ func.body.toList.map Block.outline)

def TopLevel.outlines : TopLevel → List Outline
  | .func function => [function.outline]
  | .decl declaration => declaration.outlines

def SyntaxFile.outline (file : SyntaxFile) : Outline :=
  .node file.span none (file.package.outline :: (file.imports.map ImportSpec.outline
    ++ file.decls.flatMap TopLevel.outlines))

/-! ### Lists of parts -/

theorem eq_map_of_cons {α : Type} {outlines : List α → List Outline} {outline : α → Outline}
    (nil : outlines [] = [])
    (cons : ∀ item later, outlines (item :: later) = outline item :: outlines later)
    (items : List α) : outlines items = items.map outline := by
  induction items with
  | nil => exact nil
  | cons item later ih =>
    rw [cons, ih, List.map_cons]

theorem exprOutlines_eq (exprs : List Expr) : exprOutlines exprs = exprs.map Expr.outline :=
  eq_map_of_cons rfl (fun _ _ => rfl) exprs

theorem fieldOutlines_eq (fields : List Field) : fieldOutlines fields = fields.map Field.outline :=
  eq_map_of_cons rfl (fun _ _ => rfl) fields

theorem stmtOutlines_eq (stmts : List Stmt) : stmtOutlines stmts = stmts.map Stmt.outline :=
  eq_map_of_cons rfl (fun _ _ => rfl) stmts

theorem clauseOutlines_eq (clauses : List CaseClause) :
    clauseOutlines clauses = clauses.map CaseClause.outline :=
  eq_map_of_cons rfl (fun _ _ => rfl) clauses

theorem valueSpecOutlines_eq (specs : List ValueSpec) :
    valueSpecOutlines specs = specs.map ValueSpec.outline :=
  eq_map_of_cons rfl (fun _ _ => rfl) specs

theorem typeSpecOutlines_eq (specs : List TypeSpec) :
    typeSpecOutlines specs = specs.map TypeSpec.outline :=
  eq_map_of_cons rfl (fun _ _ => rfl) specs

/-! ### Ranges of outlines -/

theorem TypeExpr.outline_span (type : TypeExpr) : type.outline.span = type.span := by
  cases type <;> rfl

theorem Expr.outline_span (expr : Expr) : expr.outline.span = expr.span := by
  cases expr with
  | type type => exact type.outline_span
  | _ => rfl

end Unclosed
