import Unclosed.Proofs.OutlinedStatements

/-!
The recursion of the grammar is well founded.  Its functions are the solution of
equations: each production stands for itself in the rules that it consults.  A
production consults them only for texts that are shorter than its own, and a
turn of a repetition that asks for another one has read something.  So there is
one solution, and rules of any depth give it for all texts shorter than the depth.
-/

namespace Unclosed.Grammar

open Grammar.Parser

/-! ### The functions of the parser -/

/-- The functions of the parser, by their results.  Repetitions are listed with their turns
and steps. -/
inductive Production : Type → Type where
  -- words
  | blanks : Production Unit
  | lineBlanks : Production Unit
  | statementEnd : Production Unit
  | tag (word : String) : Production Unit
  | symbol (word : String) : Production Unit
  | lineSymbol (word : String) : Production Unit
  | keyword (word : String) : Production Unit
  | accept (word : String) : Production Bool
  | nextIs (word : String) : Production Bool
  | sendArrow : Production Unit
  | identifier : Production Ident
  | stringLiteral : Production Expr
  | runeLiteral : Production Expr
  | numberLiteral : Production Expr
  | basicLiteral : Production Expr
  -- types
  | namedEntry : Production (Option Ident × TypeExpr)
  | unnamedEntry : Production (Option Ident × TypeExpr)
  | fieldEntry : Production FieldEntry
  | parameterTurn : Production (Turn FieldEntry)
  | fieldEntries : Production (List FieldEntry)
  | results : Production (List Field)
  | signature : Production Signature
  | nameTurn : Production (Turn Ident)
  | names : Production (List Ident)
  | namedField : Production (List Ident × TypeExpr)
  | embeddedField : Production (List Ident × TypeExpr)
  | fieldTag : Production (Option String)
  | structField : Production Field
  | structTurn : Production (Turn Field)
  | interfaceMethod : Production InterfaceElement
  | interfaceElement : Production InterfaceElement
  | interfaceTurn : Production (Turn InterfaceElement)
  | pointerType : Production (Span → TypeExpr)
  | arrayOrSliceType : Production (Span → TypeExpr)
  | mapType : Production (Span → TypeExpr)
  | chanType : Production (Span → TypeExpr)
  | funcType : Production (Span → TypeExpr)
  | structType : Production (Span → TypeExpr)
  | interfaceType : Production (Span → TypeExpr)
  | parenType : Production (Span → TypeExpr)
  | ellipsisType : Production (Span → TypeExpr)
  | namedType : Production (Span → TypeExpr)
  | typeHere : Production TypeExpr
  | typeExpr : Production TypeExpr
  -- expressions
  | argumentTurn : Production (Turn (Expr × Bool))
  | argumentList : Production (List (Expr × Bool))
  | sliceBound : Production (Option Expr)
  | indexOrSlice (operand : Expr) : Production (Span → Expr)
  | elementTurn : Production (Turn Expr)
  | literalValue : Production (List Expr)
  | functionLiteral : Production Expr
  | seesTypeLiteral : Production Bool
  | operand : Production Expr
  | selection (operand : Expr) : Production (Span → Expr)
  | operation (literals : Bool) (operand : Expr) : Production (Option (Span → Expr))
  | operationStep (literals : Bool) (start : Cursor) (operand : Expr) : Production (Option Expr)
  | postfixExpr (literals : Bool) : Production Expr
  | unaryExpr (literals : Bool) : Production Expr
  | operatorStep (literals : Bool) (least : Nat) (left : Expr) : Production (Option Expr)
  | binaryExpr (literals : Bool) (least : Nat) : Production Expr
  | expressionWith (literals : Bool) : Production Expr
  | expressionTurn (literals : Bool) : Production (Turn Expr)
  | expressionListWith (literals : Bool) : Production (List Expr)
  | literalElement : Production Expr
  -- declarations
  | valueSpec : Production ValueSpec
  | valueSpecTurn : Production (Turn ValueSpec)
  | typeSpec : Production TypeSpec
  | typeSpecTurn : Production (Turn TypeSpec)
  | varDecl : Production Decl
  | constDecl : Production Decl
  | typeDecl : Production Decl
  | declaration : Production Decl
  -- statements
  | statementTurn : Production (Turn Stmt)
  | statementList : Production (List Stmt)
  | block : Production Block
  | labeledStatement : Production Stmt
  | simpleStatement (literals : Bool) : Production Stmt
  | alternative : Production Stmt
  | conditionalHeader : Production (Option Stmt × Expr)
  | conditional : Production Stmt
  | rangeClause : Production (Span → Stmt)
  | loopClauses (init : Option Stmt) : Production (Span → Stmt)
  | plainLoop : Production (Span → Stmt)
  | loop : Production (Span → Stmt)
  | clauseLabel : Production (List Expr)
  | clauseTurn : Production (Turn CaseClause)
  | clauses : Production (List CaseClause)
  | switchHeader : Production (Option Stmt × Option Stmt)
  | switch : Production (Span → Stmt)
  | returnStatement : Production (Span → Stmt)
  | branchLabel (kind : BranchKind) : Production (Option Ident)
  | branchStatement : Production (Span → Stmt)
  | keywordStatement : Production (Option (Span → Stmt))
  | statement : Production Stmt
  -- files
  | receiverList : Production (List Field)
  | funcDecl : Production FuncDecl
  | topLevelDecl : Production TopLevel
  | dotRename : Production Ident
  | importSpec : Production ImportSpec
  | importSpecTurn : Production (Turn ImportSpec)
  | importDecl : Production (List ImportSpec)
  | importTurn : Production (Turn (List ImportSpec))
  | imports : Production (List ImportSpec)
  | topLevelTurn : Production (Turn TopLevel)
  | topLevelDecls : Production (List TopLevel)
  | sourceFile (name : String) : Production SyntaxFile

namespace Production

def parser (rules : Rules) {α : Type} : Production α → Parser α
  | blanks => Parser.blanks
  | lineBlanks => Parser.lineBlanks
  | statementEnd => Grammar.statementEnd
  | tag word => Parser.tag word
  | symbol word => Parser.symbol word
  | lineSymbol word => Parser.lineSymbol word
  | keyword word => Parser.keyword word
  | accept word => Parser.accept word
  | nextIs word => Parser.nextIs word
  | sendArrow => Parser.sendArrow
  | identifier => Parser.identifier
  | stringLiteral => Parser.stringLiteral
  | runeLiteral => Parser.runeLiteral
  | numberLiteral => Parser.numberLiteral
  | basicLiteral => Parser.basicLiteral
  | namedEntry => Grammar.namedEntry rules
  | unnamedEntry => Grammar.unnamedEntry rules
  | fieldEntry => Grammar.fieldEntry rules
  | parameterTurn => Grammar.parameterTurn rules
  | fieldEntries => Grammar.fieldEntries rules
  | results => Grammar.results rules
  | signature => Grammar.signature rules
  | nameTurn => separatedTurn (Parser.symbol ",") Parser.identifier
  | names => separated rules.bound (Parser.symbol ",") Parser.identifier
  | namedField => Grammar.namedField rules
  | embeddedField => Grammar.embeddedField rules
  | fieldTag => Grammar.fieldTag
  | structField => Grammar.structField rules
  | structTurn => itemTurn "\x7d" (context "struct field" (Grammar.structField rules))
  | interfaceMethod => Grammar.interfaceMethod rules
  | interfaceElement => Grammar.interfaceElement rules
  | interfaceTurn =>
    itemTurn "\x7d" (context "interface element" (Grammar.interfaceElement rules))
  | pointerType => Grammar.pointerType rules
  | arrayOrSliceType => Grammar.arrayOrSliceType rules
  | mapType => Grammar.mapType rules
  | chanType => Grammar.chanType rules
  | funcType => Grammar.funcType rules
  | structType => Grammar.structType rules
  | interfaceType => Grammar.interfaceType rules
  | parenType => Grammar.parenType rules
  | ellipsisType => Grammar.ellipsisType rules
  | namedType => Grammar.namedType
  | typeHere => Grammar.typeHere rules
  | typeExpr => Grammar.typeExpr rules
  | argumentTurn => Grammar.argumentTurn rules
  | argumentList => Grammar.argumentList rules
  | sliceBound => Grammar.sliceBound rules
  | indexOrSlice expr => Grammar.indexOrSlice rules expr
  | elementTurn => Grammar.elementTurn rules
  | literalValue => Grammar.literalValue rules
  | functionLiteral => Grammar.functionLiteral rules
  | seesTypeLiteral => Grammar.seesTypeLiteral
  | operand => Grammar.operand rules
  | selection expr => Grammar.selection rules expr
  | operation literals expr => Grammar.operation rules literals expr
  | operationStep literals start expr => Grammar.operationStep rules literals start expr
  | postfixExpr literals => Grammar.postfixExpr rules literals
  | unaryExpr literals => Grammar.unaryExpr rules literals
  | operatorStep literals least left => Grammar.operatorStep rules literals least left
  | binaryExpr literals least => Grammar.binaryExpr rules literals least
  | expressionWith literals => Grammar.expressionWith rules literals
  | expressionTurn literals =>
    separatedTurn (Parser.symbol ",") (Grammar.expressionWith rules literals)
  | expressionListWith literals => Grammar.expressionListWith rules literals
  | literalElement => Grammar.literalElement rules
  | valueSpec => Grammar.valueSpec rules
  | valueSpecTurn => itemTurn ")" (Grammar.valueSpec rules)
  | typeSpec => Grammar.typeSpec rules
  | typeSpecTurn => itemTurn ")" (Grammar.typeSpec rules)
  | varDecl => Grammar.varDecl rules
  | constDecl => Grammar.constDecl rules
  | typeDecl => Grammar.typeDecl rules
  | declaration => Grammar.declaration rules
  | statementTurn => Grammar.statementTurn rules
  | statementList => Grammar.statementList rules
  | block => Grammar.block rules
  | labeledStatement => Grammar.labeledStatement rules
  | simpleStatement literals => Grammar.simpleStatement rules literals
  | alternative => Grammar.alternative rules
  | conditionalHeader => Grammar.conditionalHeader rules
  | conditional => Grammar.conditional rules
  | rangeClause => Grammar.rangeClause rules
  | loopClauses init => Grammar.loopClauses rules init
  | plainLoop => Grammar.plainLoop rules
  | loop => Grammar.loop rules
  | clauseLabel => Grammar.clauseLabel rules
  | clauseTurn => Grammar.clauseTurn rules
  | clauses => Grammar.clauses rules
  | switchHeader => Grammar.switchHeader rules
  | switch => Grammar.switch rules
  | returnStatement => Grammar.returnStatement rules
  | branchLabel kind => Grammar.branchLabel kind
  | branchStatement => branchIn branchWords
  | keywordStatement => Grammar.keywordStatement rules
  | statement => Grammar.statement rules
  | receiverList => Grammar.receiverList rules
  | funcDecl => Grammar.funcDecl rules
  | topLevelDecl => Grammar.topLevelDecl rules
  | dotRename => Grammar.dotRename
  | importSpec => Grammar.importSpec
  | importSpecTurn => itemTurn ")" Grammar.importSpec
  | importDecl => Grammar.importDecl rules
  | importTurn => Grammar.importTurn rules
  | imports => Grammar.imports rules
  | topLevelTurn => Grammar.topLevelTurn rules
  | topLevelDecls => Grammar.topLevelDecls rules
  | sourceFile name => Grammar.sourceFile rules name

/-- The characters that are read at least when the result is found.  Turns and steps that
ask for another one read something. -/
def least {α : Type} : Production α → α → Nat
  | blanks, _ | lineBlanks, _ | statementEnd, _ | accept _, _ | nextIs _, _ => 0
  | tag _, _ | symbol _, _ | lineSymbol _, _ | keyword _, _ => 0
  | fieldEntries, _ | results, _ | fieldTag, _ => 0
  | argumentList, _ | sliceBound, _ | indexOrSlice _, _ | seesTypeLiteral, _ => 0
  | statementList, _ | switchHeader, _ | returnStatement, _ | branchLabel _, _ => 0
  | imports, _ | topLevelDecls, _ => 0
  | parameterTurn, turn => turn.least
  | nameTurn, turn => turn.least
  | structTurn, turn => turn.least
  | interfaceTurn, turn => turn.least
  | argumentTurn, turn => turn.least
  | elementTurn, turn => turn.least
  | expressionTurn _, turn => turn.least
  | valueSpecTurn, turn => turn.least
  | typeSpecTurn, turn => turn.least
  | statementTurn, turn => turn.least
  | clauseTurn, turn => turn.least
  | importSpecTurn, turn => turn.least
  | importTurn, turn => turn.least
  | topLevelTurn, turn => turn.least
  | operation _ _, found => whenSome found
  | operationStep _ _ _, found => whenSome found
  | operatorStep _ _ _, found => whenSome found
  | keywordStatement, found => whenSome found
  | _, _ => 1

end Production

/-! ### Reading on -/

namespace Parser

/-- On texts below the limit the two parsers are equal, and a result is found behind the
place where they start. -/
structure Reads {α : Type} (limit : Nat) (least : α → Nat) (parser parser' : Parser α) :
    Prop where
  reaches : ∀ start value rest, start.rest.length < limit → parser start = .done value rest →
    start.Reaches (least value) rest
  same : ∀ start, start.rest.length < limit → parser start = parser' start

namespace Reads

variable {α : Type} {limit more : Nat} {least : α → Nat} {parser parser' : Parser α}

theorem of_tracks {gauge : Gauge} {after : α → Gauge}
    (tracks : Tracks [] more gauge parser parser' least after)
    (le : limit ≤ more := by first | exact Nat.le_refl _ | omega) :
    Reads limit least parser parser' where
  reaches := by
    intro start value rest short parsed
    have settled := (tracks start (by omega)).settled
    rw [parsed] at settled
    exact settled.reaches
  same := by
    intro start short
    have alike := (tracks start (by omega)).alike ⟨newLine_nil, .inl rfl⟩
    rw [Cursor.followedBy_nil] at alike
    exact alike.eq.symm

theorem of_balanced {least : Nat} (balanced : Balanced [] more least parser parser')
    (le : limit ≤ more := by first | exact Nat.le_refl _ | omega) :
    Reads limit (fun _ => least) parser parser' :=
  of_tracks (balanced 0) le

theorem of_draws {gauge : Gauge} {after : α → Gauge} {shows : α → List Outline → Prop}
    (draws : Draws [] more gauge parser parser' least after shows)
    (le : limit ≤ more := by first | exact Nat.le_refl _ | omega) :
    Reads limit least parser parser' :=
  of_tracks draws.tracks le

theorem of_outlined {least : Nat} {shows : α → List Outline → Prop}
    (outlined : Outlined [] more least parser parser' shows)
    (le : limit ≤ more := by first | exact Nat.le_refl _ | omega) :
    Reads limit (fun _ => least) parser parser' :=
  of_draws (outlined 0) le

theorem of_item {closing : String} {read : α → List Outline}
    (steps : Steps closing (closes 1) (closes 0))
    (outlined : Outlined [] more 1 parser parser' (Shows read))
    (le : limit ≤ more := by first | exact Nat.le_refl _ | omega) :
    Reads limit Turn.least (itemTurn closing parser) (itemTurn closing parser') :=
  of_draws (itemTurn_draws steps outlined) le

theorem refl (reaches : ∀ start value rest, parser start = .done value rest →
      start.Reaches 0 rest) : Reads limit (fun _ => 0) parser parser where
  reaches start value rest _ parsed := reaches start value rest parsed
  same _ _ := rfl

theorem bind {β : Type} {next : α → Parser β} (reads : Reads limit (fun _ => 0) parser parser)
    (later : ∀ value, Reads limit (fun _ => 0) (next value) (next value)) :
    Reads limit (fun _ => 0) (parser >>= next) (parser >>= next) where
  reaches := by
    intro start value rest short parsed
    obtain ⟨result, middle, parsedFirst, parsedNext⟩ := bind_eq_done.mp parsed
    have reached := reads.reaches start result middle short parsedFirst
    have length := reached.length_le
    exact reached.trans ((later result).reaches middle value rest (by omega) parsedNext)
  same _ _ := rfl

end Reads

/-! ### Words, whatever their text -/

theorem tag_reads (limit : Nat) (word : String) : Reads limit (fun _ => 0) (tag word) (tag word) := by
  apply Reads.refl
  intro start value rest parsed
  unfold tag move at parsed
  split at parsed
  · next found =>
    cases parsed
    exact (Cursor.reaches_of_after? found).mono (Nat.zero_le _)
  · cases parsed

theorem accept_reads (limit : Nat) (word : String) :
    Reads limit (fun _ => 0) (accept word) (accept word) := by
  apply Reads.refl
  intro start value rest parsed
  unfold accept at parsed
  split at parsed
  · next found =>
    cases parsed
    exact (Cursor.reaches_of_after? found).mono (Nat.zero_le _)
  · cases parsed
    exact .refl _

theorem keyword_reads (limit : Nat) (word : String) :
    Reads limit (fun _ => 0) (keyword word) (keyword word) := by
  refine .bind (.of_balanced blanks_balanced) fun _ => .bind (tag_reads limit word) fun _ => ?_
  apply Reads.refl
  intro start value rest parsed
  obtain ⟨followed, _, ⟨⟩, parsed⟩ := bind_eq_done.mp parsed
  split at parsed
  · cases parsed
  · cases parsed
    exact .refl _

end Parser

section Productions

variable {α : Type} {limit : Nat} {rules rules' : Rules} (follow : rules.Follow [] limit rules')
include follow

theorem Production.reads (production : Production α) :
    Reads limit production.least (production.parser rules) (production.parser rules') := by
  cases production with
  | blanks => exact .of_balanced blanks_balanced
  | lineBlanks => exact .of_balanced lineBlanks_balanced
  | statementEnd => exact .of_balanced statementEnd_balanced
  | tag word => exact tag_reads limit word
  | symbol word => exact .bind (.of_balanced blanks_balanced) fun _ => tag_reads limit word
  | lineSymbol word => exact .bind (.of_balanced lineBlanks_balanced) fun _ => tag_reads limit word
  | keyword word => exact keyword_reads limit word
  | accept word => exact accept_reads limit word
  | nextIs word => exact .refl fun start value rest parsed => by cases parsed; exact .refl _
  | sendArrow => exact .of_balanced sendArrow_balanced
  | identifier => exact .of_outlined identifier_outlined
  | stringLiteral => exact .of_outlined stringLiteral_outlined
  | runeLiteral => exact .of_outlined runeLiteral_outlined
  | numberLiteral => exact .of_outlined numberLiteral_outlined
  | basicLiteral => exact .of_outlined basicLiteral_outlined
  | namedEntry => exact .of_outlined (namedEntry_outlined follow)
  | unnamedEntry => exact .of_outlined (unnamedEntry_outlined follow)
  | fieldEntry => exact .of_outlined (fieldEntry_outlined follow)
  | parameterTurn => exact .of_draws (parameterTurn_draws follow 0)
  | fieldEntries => exact .of_outlined (fieldEntries_outlined follow)
  | results => exact .of_outlined (results_outlined follow)
  | signature => exact .of_outlined (signature_outlined follow)
  | nameTurn =>
    exact .of_draws (separatedTurn_outlined (fun _ => symbol_tracks (.plain (by decide)))
      identifier_outlined 0)
  | names => exact .of_outlined (names_outlined follow)
  | namedField => exact .of_outlined (namedField_outlined follow)
  | embeddedField => exact .of_outlined (embeddedField_outlined follow)
  | fieldTag => exact .of_balanced (fieldTag_balanced newLine_nil)
  | structField => exact .of_outlined (structField_outlined follow)
  | structTurn =>
    exact .of_item (.closing rfl rfl) fun depth =>
      context_draws _ (structField_outlined follow depth)
  | interfaceMethod => exact .of_outlined (interfaceMethod_outlined follow)
  | interfaceElement => exact .of_outlined (interfaceElement_outlined follow)
  | interfaceTurn =>
    exact .of_item (.closing rfl rfl) fun depth =>
      context_draws _ (interfaceElement_outlined follow depth)
  | pointerType => exact .of_outlined (pointerType_outlined follow)
  | arrayOrSliceType => exact .of_outlined (arrayOrSliceType_outlined follow)
  | mapType => exact .of_outlined (mapType_outlined follow)
  | chanType => exact .of_outlined (chanType_outlined follow)
  | funcType => exact .of_outlined (funcType_outlined follow)
  | structType => exact .of_outlined (structType_outlined follow)
  | interfaceType => exact .of_outlined (interfaceType_outlined follow)
  | parenType => exact .of_outlined (parenType_outlined follow)
  | ellipsisType => exact .of_outlined (ellipsisType_outlined follow)
  | namedType => exact .of_outlined namedType_outlined
  | typeHere => exact .of_outlined (typeHere_outlined follow)
  | typeExpr => exact .of_outlined (typeExpr_outlined follow)
  | argumentTurn => exact .of_draws (argumentTurn_draws follow 0)
  | argumentList => exact .of_draws (argumentList_draws follow 0)
  | sliceBound => exact .of_outlined (sliceBound_outlined follow)
  | indexOrSlice expr => exact .of_draws (indexOrSlice_draws follow expr 0)
  | elementTurn => exact .of_draws (elementTurn_draws follow 0)
  | literalValue => exact .of_outlined (literalValue_outlined follow)
  | functionLiteral => exact .of_outlined (functionLiteral_outlined follow)
  | seesTypeLiteral => exact .of_balanced seesTypeLiteral_balanced
  | operand => exact .of_outlined (operand_outlined follow)
  | selection expr => exact .of_outlined (selection_outlined follow expr)
  | operation literals expr => exact .of_draws (operation_draws follow literals expr 0)
  | operationStep literals start expr =>
    exact .of_tracks (operationStep_tracks follow literals start expr 0)
  | postfixExpr literals => exact .of_outlined (postfixExpr_outlined follow literals)
  | unaryExpr literals => exact .of_outlined (unaryExpr_outlined follow literals)
  | operatorStep literals least left =>
    exact .of_draws (operatorStep_draws follow literals least left 0)
  | binaryExpr literals least => exact .of_outlined (binaryExpr_outlined follow literals least)
  | expressionWith literals => exact .of_outlined (binaryExpr_outlined follow literals 1)
  | expressionTurn literals =>
    exact .of_draws (separatedTurn_outlined (fun _ => symbol_tracks (.plain (by decide)))
      (binaryExpr_outlined follow literals 1) 0)
  | expressionListWith literals =>
    exact .of_outlined (expressionListWith_outlined follow literals)
  | literalElement => exact .of_outlined (literalElement_outlined follow)
  | valueSpec => exact .of_outlined (valueSpec_outlined follow)
  | valueSpecTurn => exact .of_item (.closing rfl rfl) (valueSpec_outlined follow)
  | typeSpec => exact .of_outlined (typeSpec_outlined follow)
  | typeSpecTurn => exact .of_item (.closing rfl rfl) (typeSpec_outlined follow)
  | varDecl => exact .of_outlined (varDecl_outlined follow)
  | constDecl => exact .of_outlined (constDecl_outlined follow)
  | typeDecl => exact .of_outlined (typeDecl_outlined follow)
  | declaration => exact .of_outlined (declaration_outlined follow)
  | statementTurn => exact .of_draws (statementTurn_draws follow 0)
  | statementList => exact .of_outlined (statementList_outlined follow)
  | block => exact .of_outlined (block_outlined follow)
  | labeledStatement => exact .of_outlined (labeledStatement_outlined follow)
  | simpleStatement literals => exact .of_outlined (simpleStatement_outlined follow literals)
  | alternative => exact .of_outlined (alternative_outlined follow)
  | conditionalHeader => exact .of_outlined (conditionalHeader_outlined follow)
  | conditional => exact .of_outlined (conditional_outlined follow)
  | rangeClause => exact .of_outlined (rangeClause_outlined follow)
  | loopClauses init => exact .of_outlined (loopClauses_outlined follow init)
  | plainLoop => exact .of_outlined (plainLoop_outlined follow)
  | loop => exact .of_outlined (loop_outlined follow)
  | clauseLabel => exact .of_outlined (clauseLabel_outlined follow)
  | clauseTurn => exact .of_draws (clauseTurn_draws follow 0)
  | clauses => exact .of_outlined (clauses_outlined follow)
  | switchHeader => exact .of_outlined (switchHeader_outlined follow)
  | switch => exact .of_outlined (switch_outlined follow)
  | returnStatement => exact .of_outlined (returnStatement_outlined follow)
  | branchLabel kind => exact .of_outlined (branchLabel_outlined newLine_nil kind)
  | branchStatement => exact .of_outlined (branchIn_outlined newLine_nil (by decide))
  | keywordStatement => exact .of_draws (keywordStatement_draws follow 0)
  | statement => exact .of_outlined (statement_outlined follow)
  | receiverList => exact .of_outlined (receiverList_outlined follow)
  | funcDecl => exact .of_outlined (funcDecl_outlined follow)
  | topLevelDecl => exact .of_outlined (topLevelDecl_outlined follow)
  | dotRename => exact .of_outlined dotRename_outlined
  | importSpec => exact .of_outlined importSpec_outlined
  | importSpecTurn => exact .of_item (.closing rfl rfl) importSpec_outlined
  | importDecl => exact .of_outlined (importDecl_outlined follow)
  | importTurn => exact .of_draws (importTurn_draws follow 0)
  | imports => exact .of_outlined (imports_outlined follow)
  | topLevelTurn => exact .of_draws (topLevelTurn_draws follow 0)
  | topLevelDecls => exact .of_outlined (topLevelDecls_outlined follow)
  | sourceFile name => exact .of_outlined (sourceFile_outlined follow name)

end Productions

/-! ### The equations of the grammar -/

/-- The rules give the same replies on all texts below the limit. -/
structure Rules.AgreeBelow (limit : Nat) (rules rules' : Rules) : Prop where
  typeHere : ∀ start, start.rest.length < limit → rules.typeHere start = rules'.typeHere start
  binary : ∀ literals least start, start.rest.length < limit →
    rules.binary literals least start = rules'.binary literals least start
  unary : ∀ literals start, start.rest.length < limit →
    rules.unary literals start = rules'.unary literals start
  element : ∀ start, start.rest.length < limit → rules.element start = rules'.element start
  block : ∀ start, start.rest.length < limit → rules.block start = rules'.block start
  statement : ∀ start, start.rest.length < limit → rules.statement start = rules'.statement start
  conditional : ∀ start, start.rest.length < limit →
    rules.conditional start = rules'.conditional start

theorem Parser.Outlined.of_same {α : Type} {limit least : Nat} {parser other parser' : Parser α}
    {shows : α → List Outline → Prop} (outlined : Outlined [] limit least parser other shows)
    (same : ∀ start, start.rest.length < limit → parser start = parser' start) :
    Outlined [] limit least parser parser' shows := by
  intro depth
  refine ⟨fun first short => ⟨?_, fun _ => ?_⟩, (outlined depth).draws⟩
  · exact ((outlined depth).tracks first short).settled
  · rw [Cursor.followedBy_nil, ← same first short]
    exact .refl _

/-- Each rule replies as the production that it stands for, which consults the rules, on all
texts that leave the repetitions enough turns. -/
def Rules.Solves (rules : Rules) : Prop := rules.AgreeBelow rules.bound rules.deepen

namespace Rules

variable {limit : Nat} {rules rules' rules'' : Rules}

namespace AgreeBelow

section

variable (agree : rules.AgreeBelow limit rules')
include agree

theorem symm : rules'.AgreeBelow limit rules where
  typeHere start short := (agree.typeHere start short).symm
  binary literals least start short := (agree.binary literals least start short).symm
  unary literals start short := (agree.unary literals start short).symm
  element start short := (agree.element start short).symm
  block start short := (agree.block start short).symm
  statement start short := (agree.statement start short).symm
  conditional start short := (agree.conditional start short).symm

theorem trans (agree' : rules'.AgreeBelow limit rules'') :
    rules.AgreeBelow limit rules'' where
  typeHere start short := (agree.typeHere start short).trans (agree'.typeHere start short)
  binary literals least start short :=
    (agree.binary literals least start short).trans (agree'.binary literals least start short)
  unary literals start short :=
    (agree.unary literals start short).trans (agree'.unary literals start short)
  element start short := (agree.element start short).trans (agree'.element start short)
  block start short := (agree.block start short).trans (agree'.block start short)
  statement start short := (agree.statement start short).trans (agree'.statement start short)
  conditional start short := (agree.conditional start short).trans (agree'.conditional start short)

theorem mono {fewer : Nat} (le : fewer ≤ limit) :
    rules.AgreeBelow fewer rules' where
  typeHere start short := agree.typeHere start (by omega)
  binary literals least start short := agree.binary literals least start (by omega)
  unary literals start short := agree.unary literals start (by omega)
  element start short := agree.element start (by omega)
  block start short := agree.block start (by omega)
  statement start short := agree.statement start (by omega)
  conditional start short := agree.conditional start (by omega)

end

theorem of_follow (follow : rules.Follow [] limit rules') : rules.AgreeBelow limit rules' where
  typeHere := (Reads.of_outlined follow.typeHere).same
  binary literals least := (Reads.of_outlined (follow.binary literals least)).same
  unary literals := (Reads.of_outlined (follow.unary literals)).same
  element := (Reads.of_outlined follow.element).same
  block := (Reads.of_outlined follow.block).same
  statement := (Reads.of_outlined follow.statement).same
  conditional := (Reads.of_outlined follow.conditional).same

end AgreeBelow

theorem Follow.of_agree (follow : rules.Follow [] limit rules'')
    (agree : rules.AgreeBelow limit rules') (enough : limit ≤ rules'.bound) :
    rules.Follow [] limit rules' where
  newLine := newLine_nil
  bound := follow.bound
  bound' := enough
  typeHere := follow.typeHere.of_same agree.typeHere
  binary literals least := (follow.binary literals least).of_same (agree.binary literals least)
  unary literals := (follow.unary literals).of_same (agree.unary literals)
  element := follow.element.of_same agree.element
  block := follow.block.of_same agree.block
  statement := follow.statement.of_same agree.statement
  conditional := follow.conditional.of_same agree.conditional

theorem bound_ofDepth (depth : Nat) : (ofDepth depth).bound = depth := by
  induction depth with
  | zero => rfl
  | succ depth ih => exact congrArg (· + 1) ih

theorem solves_ofDepth (depth : Nat) : (ofDepth depth).Solves := by
  unfold Solves
  rw [bound_ofDepth]
  exact .of_follow (follow_ofDepth newLine_nil depth (Nat.le_refl _) (Nat.le_succ _))

namespace Solves

variable (solves : rules.Solves)
include solves

/-- A solution is what rules of enough depth are. -/
theorem agree_ofDepth (limit : Nat) :
    ∀ {depth : Nat}, limit ≤ depth → limit ≤ rules.bound →
      (ofDepth depth).AgreeBelow limit rules := by
  induction limit with
  | zero =>
    intro depth _ _
    constructor <;> intros <;> contradiction
  | succ limit ih =>
    intro depth enough bounded
    obtain ⟨depth, rfl⟩ : ∃ fewer, depth = fewer + 1 := ⟨depth - 1, by omega⟩
    -- The productions agree on texts of one character more than their rules do.
    have self := follow_ofDepth newLine_nil limit (Nat.le_of_succ_le_succ enough)
      (Nat.le_of_succ_le_succ enough)
    have follow := self.of_agree (ih (Nat.le_of_succ_le_succ enough) (by omega)) (by omega)
    have equations : rules.AgreeBelow (limit + 1) rules.deepen := solves.mono bounded
    exact (AgreeBelow.of_follow follow.deepen).trans equations.symm

theorem follow {limit : Nat} (bounded : limit ≤ rules.bound) :
    (ofDepth limit).Follow [] limit rules :=
  (follow_ofDepth newLine_nil limit (Nat.le_refl _) (Nat.le_refl _)).of_agree
    (solves.agree_ofDepth limit (Nat.le_refl _) bounded) bounded

theorem reaches {α : Type} (production : Production α) {start rest : Cursor} {value : α}
    (short : start.rest.length < rules.bound)
    (parsed : production.parser rules start = .done value rest) :
    start.Reaches (production.least value) rest := by
  have reads := production.reads (solves.follow (Nat.le_refl _))
  rw [← reads.same start short] at parsed
  exact reads.reaches start value rest short parsed

/-- Productions consult the rules for shorter texts only. -/
theorem consults_shorter (bounded : limit ≤ rules.bound) (bounded' : limit ≤ rules'.bound)
    (agree : rules.AgreeBelow limit rules') :
    rules.deepen.AgreeBelow (limit + 1) rules'.deepen := by
  have follow := solves.follow bounded
  have follow' := follow.of_agree ((AgreeBelow.of_follow follow).trans agree) bounded'
  exact (AgreeBelow.of_follow follow.deepen).symm.trans (.of_follow follow'.deepen)

theorem unique (solves' : rules'.Solves) : rules.AgreeBelow (min rules.bound rules'.bound) rules' :=
  (AgreeBelow.of_follow (solves.follow (Nat.min_le_left _ _))).symm.trans
    (.of_follow (solves'.follow (Nat.min_le_right _ _)))

/-- On a text below the bound a solution gives the replies of the rules for that text. -/
theorem parser_eq {α : Type} (production : Production α) {start : Cursor}
    (short : start.rest.length < rules.bound) :
    production.parser (forText start) start = production.parser rules start := by
  have agree := solves.agree_ofDepth (start.rest.length + 1) (Nat.le_succ _) short
  have self := follow_ofDepth newLine_nil (start.rest.length + 1) (Nat.le_succ _) (Nat.le_succ _)
  have reads := production.reads (self.of_agree agree short)
  exact reads.same start (Nat.lt_succ_self _)

end Solves

end Rules

/-- The equations of the grammar have one solution.  Rules of any depth give it for texts
shorter than the depth, so that the depth of the rules never shows.  All functions of the
solution read on from where they start; turns and steps that ask for another one, and the
parsers of whole constructs, read something; and the recursion goes to shorter texts. -/
theorem parsing_wellFounded :
    (∀ depth, (Rules.ofDepth depth).bound = depth ∧ (Rules.ofDepth depth).Solves)
      ∧ ∀ rules : Rules, rules.Solves →
        (∀ (α : Type) (production : Production α) (start : Cursor) (value : α) (rest : Cursor),
          start.rest.length < rules.bound → production.parser rules start = .done value rest →
            start.Reaches (production.least value) rest
              ∧ ∀ text, start.In text → String.Pos.Raw.IsValid text ⟨rest.offset⟩)
        ∧ (∀ (limit : Nat) (rules' : Rules), limit ≤ rules.bound → limit ≤ rules'.bound →
            rules.AgreeBelow limit rules' → rules.deepen.AgreeBelow (limit + 1) rules'.deepen)
        ∧ (∀ rules' : Rules, rules'.Solves → rules.AgreeBelow (min rules.bound rules'.bound) rules')
        ∧ ∀ name text : String, text.length < rules.bound →
            parseFile name text = match sourceFile rules name (Cursor.ofText text) with
              | .done file _ => .ok file
              | .miss fault | .halt fault => .error (.ofFault name fault) := by
  refine ⟨fun depth => ⟨Rules.bound_ofDepth depth, Rules.solves_ofDepth depth⟩, ?_⟩
  intro rules solves
  refine ⟨?_, ?_, fun rules' => solves.unique, ?_⟩
  · intro α production start value rest short parsed
    have reaches := solves.reaches production short parsed
    exact ⟨reaches, fun text inText => (inText.of_reaches reaches).isValid⟩
  · intro limit rules' bounded bounded' agree
    exact solves.consults_shorter bounded bounded' agree
  · intro name text short
    have inBounds : (Cursor.ofText text).rest.length < rules.bound := short
    have same : sourceFile (.forText (Cursor.ofText text)) name (Cursor.ofText text)
        = sourceFile rules name (Cursor.ofText text) := solves.parser_eq (.sourceFile name) inBounds
    rw [← same]
    rfl

end Unclosed.Grammar
