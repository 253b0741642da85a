import Unclosed.Proofs.Mentions
import Unclosed.Proofs.OutlinedStatements

/-!
The identifiers of a parsed file stand one behind the other in its text, so no
two of them share a range.  Each of them is a word of the file's outline, the
words of an outline stand in a row, and no word is empty.
-/

namespace Unclosed

/-! ### Words -/

mutual

def Outline.words : Outline → List Outline
  | .node _ none parts => partWords parts
  | .node span (some text) parts => [.node span (some text) parts]

def partWords : List Outline → List Outline
  | [] => []
  | part :: later => part.words ++ partWords later

end

theorem partWords_append (first second : List Outline) :
    partWords (first ++ second) = partWords first ++ partWords second := by
  induction first with
  | nil => rfl
  | cons part later ih =>
    rw [List.cons_append, partWords, partWords, ih, List.append_assoc]

section Rows

variable {source : String}

mutual

theorem words_row : (node : Outline) → node.Sound source →
    Outline.Row source node.span.start node.words node.span.stop
  | .node _ none parts, sound => partWords_row parts _ _ (.parts sound)
  | .node _ (some _) _, sound => .single sound

theorem partWords_row : (nodes : List Outline) → (low high : Nat) →
    Outline.Row source low nodes high → Outline.Row source low (partWords nodes) high
  | [], _, _, row => row
  | node :: later, low, high, row => by
      have whole : Outline.Row source low ([] ++ node :: later) high := row
      obtain ⟨start, rest⟩ := whole.split
      have words := words_row node (row.sound node (by simp))
      exact (words.widen (start.inside node (by simp)).1 (Nat.le_refl _)).append
        (partWords_row later _ _ rest)

end

theorem Outline.Row.nodup {low high : Nat} {idents : List Ident}
    (row : Outline.Row source low (idents.map Ident.outline) high) :
    (idents.map Ident.span).Nodup := by
  refine List.pairwise_map.mpr ((List.pairwise_map.mp row.apart).imp_of_mem ?_)
  intro first second member _ ordered same
  obtain ⟨⟨_, _, _, _, reads⟩, ⟨named, _⟩⟩ :=
    row.sound first.outline (List.mem_map_of_mem member)
  obtain ⟨before, after, _, start, stop⟩ := reads first.name rfl
  have empty : first.name.utf8ByteSize = 0 := by
    change first.span.stop ≤ second.span.start at ordered
    rw [← same] at ordered
    rw [String.utf8ByteSize_append] at stop
    omega
  exact named (congrArg some (String.utf8ByteSize_eq_zero_iff.mp empty))

end Rows

/-! ### Identifiers among the words -/

def Named (mentions : List Mention) (nodes : List Outline) : Prop :=
  ((mentions.map Mention.ident).map Ident.outline).Sublist (partWords nodes)

namespace Named

variable {first second : List Mention} {part : Outline} {nodes later : List Outline}

theorem nil : Named [] nodes := List.nil_sublist _

theorem append (named : Named first nodes) (namedLater : Named second later) :
    Named (first ++ second) (nodes ++ later) := by
  rw [Named, List.map_append, List.map_append, partWords_append]
  exact List.Sublist.append named namedLater

theorem cons (named : Named first [part]) (namedLater : Named second later) :
    Named (first ++ second) (part :: later) :=
  named.append namedLater

/-- The words of a node without text are those of its parts. -/
theorem node {span : Span} (named : Named first nodes) : Named first [.node span none nodes] := by
  rw [Named, partWords, Outline.words, partWords, List.append_nil]
  exact named

theorem ident (mention : Mention) : Named [mention] [mention.ident.outline] :=
  List.Sublist.refl _

theorem idents (names : List Ident) : Named (names.map .plain) (names.map Ident.outline) := by
  induction names with
  | nil => exact nil
  | cons name later ih => exact (ident (.plain name)).cons ih

end Named

mutual

theorem Expr.named : (expr : Expr) → Named expr.mentions [expr.outline]
  | .ident name => .ident (.plain name)
  | .literal _ _ _ => .nil
  | .composite _ type elements => .node ((optional_named type).append (exprs_named elements))
  | .keyValue _ key value => .node (key.named.cons value.named)
  | .function _ signature body => .node (signature.named.cons body.named)
  | .paren _ operand => .node operand.named
  | .selector _ operand name => .node (operand.named.cons (.ident (.plain name)))
  | .index _ operand index => .node (operand.named.cons index.named)
  | .slice _ operand low high max =>
    .node (((operand.named.append (optional_named low)).append (optional_named high)).append
      (optional_named max))
  | .typeAssert _ operand type => .node (operand.named.cons (optionalType_named type))
  | .call _ callee arguments _ => .node (callee.named.cons (exprs_named arguments))
  | .star _ operand => .node operand.named
  | .unary _ _ operand => .node operand.named
  | .binary _ _ left right => .node (left.named.cons right.named)
  | .type type => type.named

theorem optional_named : (expr : Option Expr) → Named (optionalMentions expr) (optionalOutlines expr)
  | none => .nil
  | some expr => expr.named

theorem exprs_named : (exprs : List Expr) → Named (exprMentions exprs) (exprOutlines exprs)
  | [] => .nil
  | expr :: later => expr.named.cons (exprs_named later)

theorem TypeExpr.named : (type : TypeExpr) → Named type.mentions [type.outline]
  | .name _ ident => .node (.ident (.plain ident))
  | .qualified _ package name => .node ((Named.ident (.plain package)).cons (.ident (.plain name)))
  | .pointer _ elem => .node elem.named
  | .slice _ elem => .node elem.named
  | .array _ length elem => .node ((optional_named length).append elem.named)
  | .map _ key value => .node (key.named.cons value.named)
  | .chan _ _ elem => .node elem.named
  | .func _ signature => .node signature.named
  | .struct _ fields => .node (fields_named fields)
  | .interface _ elements => .node (interface_named elements)
  | .ellipsis _ elem => .node elem.named

theorem optionalType_named :
    (type : Option TypeExpr) → Named (optionalTypeMentions type) (optionalTypeOutlines type)
  | none => .nil
  | some type => type.named

theorem fields_named : (fields : List Field) → Named (fieldMentions fields) (fieldOutlines fields)
  | [] => .nil
  | .mk names type _ _ :: later =>
    .cons (.node ((Named.idents names).append type.named)) (fields_named later)

theorem Signature.named : (signature : Signature) → Named signature.mentions [signature.outline]
  | .mk params results _ => .node ((fields_named params).append (fields_named results))

theorem interface_named : (elements : List InterfaceElement) →
    Named (interfaceMentions elements) (interfaceOutlines elements)
  | [] => .nil
  | .method name signature :: later =>
    (Named.ident (.plain name)).cons (signature.named.cons (interface_named later))
  | .embedded type :: later => type.named.cons (interface_named later)

theorem Block.named : (block : Block) → Named block.mentions [block.outline]
  | .mk stmts _ => .node (stmts_named stmts)

theorem stmts_named : (stmts : List Stmt) → Named (stmtMentions stmts) (stmtOutlines stmts)
  | [] => .nil
  | stmt :: later => stmt.named.cons (stmts_named later)

theorem Stmt.named : (stmt : Stmt) → Named stmt.mentions [stmt.outline]
  | .expr _ expr => .node expr.named
  | .assign _ targets _ values => .node ((exprs_named targets).append (exprs_named values))
  | .incDec _ expr _ => .node expr.named
  | .send _ channel value => .node (channel.named.cons value.named)
  | .decl _ decl => .node decl.named
  | .returns _ results => .node (exprs_named results)
  | .defer _ expr => .node expr.named
  | .go _ expr => .node expr.named
  | .conditional _ init condition body alternative => by
      have header := ((optionalStmt_named init).append condition.named).append body.named
      rw [List.append_assoc (optionalStmtOutlines init)] at header
      exact .node (header.append (optionalStmt_named alternative))
  | .loop _ init condition post body =>
    .node ((((optionalStmt_named init).append (optional_named condition)).append
      (optionalStmt_named post)).append body.named)
  | .range _ key value _ expr body => by
      have header := ((optional_named key).append (optional_named value)).append expr.named
      have whole := header.append body.named
      rw [List.append_assoc (optionalOutlines key ++ optionalOutlines value)] at whole
      exact .node whole
  | .switch _ init tag clauses =>
    .node (((optionalStmt_named init).append (optional_named tag)).append (clauses_named clauses))
  | .typeSwitch _ init binding guard clauses =>
    .node ((((optionalStmt_named init).append (.idents binding.toList)).append guard.named).append
      (clauses_named clauses))
  | .block body => body.named
  | .branch _ _ _ => .nil
  | .labeled _ _ stmt => .node (Named.nil.cons stmt.named)
  | .empty _ => .nil

theorem optionalStmt_named :
    (stmt : Option Stmt) → Named (optionalStmtMentions stmt) (optionalStmtOutlines stmt)
  | none => .nil
  | some stmt => stmt.named

theorem clauses_named :
    (clauses : List CaseClause) → Named (clauseMentions clauses) (clauseOutlines clauses)
  | [] => .nil
  | .mk exprs body _ :: later =>
    .cons (.node ((exprs_named exprs).append (stmts_named body))) (clauses_named later)

theorem Decl.named : (decl : Decl) → Named decl.mentions decl.outlines
  | .var specs => valueSpecs_named specs
  | .const specs => valueSpecs_named specs
  | .type specs => typeSpecs_named specs

theorem valueSpecs_named :
    (specs : List ValueSpec) → Named (valueSpecMentions specs) (valueSpecOutlines specs)
  | [] => .nil
  | .mk names type values _ _ :: later =>
    .cons (.node (((Named.idents names).append (optionalType_named type)).append
      (exprs_named values))) (valueSpecs_named later)

theorem typeSpecs_named :
    (specs : List TypeSpec) → Named (typeSpecMentions specs) (typeSpecOutlines specs)
  | [] => .nil
  | .mk _ _ type _ :: later =>
    .cons (.node ((Named.ident _).cons type.named)) (typeSpecs_named later)

end

theorem FuncDecl.named (func : FuncDecl) : Named func.mentions [func.outline] := by
  have receiver : Named (fieldMentions func.receiver.toList)
      (func.receiver.toList.map Field.outline) := by
    rw [← fieldOutlines_eq]
    exact fields_named _
  have body : Named (func.body.elim [] Block.mentions) (func.body.toList.map Block.outline) := by
    cases func.body with
    | none => exact .nil
    | some body => exact body.named
  have header := (receiver.append (.ident ⟨func.name, .function⟩)).append func.signature.named
  rw [List.append_assoc (func.receiver.toList.map Field.outline)] at header
  exact .node (header.append body)

theorem TopLevel.named : (decl : TopLevel) → Named decl.mentions decl.outlines
  | .func function => function.named
  | .decl declaration => declaration.named

theorem flatMap_named {α : Type} {mentions : α → List Mention} {outlines : α → List Outline}
    (named : ∀ item, Named (mentions item) (outlines item)) (items : List α) :
    Named (items.flatMap mentions) (items.flatMap outlines) := by
  induction items with
  | nil => exact .nil
  | cons item later ih => exact (named item).append ih

theorem ImportSpec.named (spec : ImportSpec) :
    Named (spec.rename.toList.map .plain) [spec.outline] :=
  .node (.idents _)

theorem SyntaxFile.named (file : SyntaxFile) : Named file.mentions [file.outline] := by
  have package : Named [] [file.package.outline] := .nil
  have imports := flatMap_named ImportSpec.named file.imports
  rw [← List.map_eq_flatMap] at imports
  exact .node (package.cons (imports.append (flatMap_named TopLevel.named file.decls)))

/-- The identifiers of a parsed file have ranges of their own. -/
theorem Grammar.parseFile_nodup {name text : String} {file : SyntaxFile}
    (parsed : parseFile name text = .ok file) : (file.mentions.map Mention.span).Nodup := by
  obtain ⟨rest, drawn⟩ := parseFile_drawn parsed
  have apart := ((partWords_row _ _ _ (drawn.row (.refl _))).sublist (SyntaxFile.named _)).nodup
  rw [List.map_map] at apart
  exact apart

end Unclosed
