import Unclosed.Analysis.Scan
import Unclosed.Proofs.MoreDisposers
import Unclosed.Proofs.LoadedPackages

/-!
A scan never lacks information.  Every call whose results a statement of a body
drops or binds has a recorded type, and every name that the statement declares
leads to a declaration.
-/

namespace Unclosed

variable {info : TypeInfo} {file : FileId} {expr : Expr} {ident : Ident}

def TypeTable.resultTypes (table : TypeTable) (type : TypeId) : List TypeId :=
  match table.get type with
  | .tuple elems => elems
  | _ => [type]

theorem SiteMap.exists_get? {α : Type} {map : SiteMap α} {site : Site} {value : α}
    (member : (site, value) ∈ map.entries) : ∃ latest, map.get? site = some latest := by
  cases found : map.get? site with
  | some latest => exact ⟨latest, rfl⟩
  | none => simpa using List.lookup_eq_none_iff.mp found _ member

theorem TypeInfo.Types.typeOf (types : info.Types file expr) :
    ∃ type, info.typeOf file expr = some type := by
  obtain ⟨_, member⟩ := types
  exact SiteMap.exists_get? member

theorem TypeInfo.Names.objectOf {idents : List Ident} (names : info.Names file idents)
    (member : ident ∈ idents) (named : ident.isBlank = false) :
    ∃ id, info.objectOf file ident = some id := by
  unfold TypeInfo.objectOf
  cases defined : info.defs.get? ⟨file, ident.span⟩ with
  | some id => exact ⟨id, rfl⟩
  | none =>
    obtain ⟨id, inDefs | inUses⟩ := names ident member named
    · obtain ⟨_, found⟩ := SiteMap.exists_get? inDefs
      rw [defined] at found
      cases found
    · exact SiteMap.exists_get? inUses

namespace Scan

variable {scan : Scan}

theorem resultsOf_of_typeOf {callee : Expr} {span : Span} {arguments : List Expr} {spread : Bool}
    (call : expr.unparen = .call span callee arguments spread)
    (noWrapper : scan.isNopWrapper callee = false) {type : TypeId}
    (typed : scan.view.typeOf expr.unparen = some type) :
    scan.resultsOf expr = (scan.view.program.types.resultTypes type).map scan.view.disposal := by
  unfold resultsOf TypeTable.resultTypes
  rw [call] at typed
  simp only [call, noWrapper, typed]
  cases scan.view.program.types.get type <;> rfl

theorem bind_of_objectOf (named : ident.isBlank = false) {owner : SymbolId}
    (found : scan.view.objectOf ident = some owner) {disposal : Disposal}
    (needed : disposal.needed = true) :
    scan.bind ident disposal = ⟨trackedValues ident owner disposal, []⟩ := by
  simp [bind, needed, named, found]

end Scan

namespace Program

variable {settings : Settings} {tree : SourceTree} {patterns : List String} {program : Program}

/-- Scanning a statement of a body of a loaded program, the type of every call
is known, so that all its results are seen, and so is the declaration of every
new name, so that all values it must close are tracked. -/
theorem scan_informed (loaded : loadProgram settings tree patterns = .ok program)
    {package : Package} (inProgram : package ∈ program.packages)
    {numbered : NumberedFile} (inPackage : numbered ∈ package.files)
    {func : FuncDecl} (inFile : func ∈ numbered.file.functions)
    {body : Block} (present : func.body = some body) {stmt : Stmt} (inBody : stmt ∈ body.stmts)
    (scan : Scan) (view : scan.view = ⟨program, package, numbered.id⟩) :
    (∀ expr ∈ stmt.operands, ∃ type, scan.view.typeOf expr.unparen = some type ∧
      ∀ span callee arguments spread, expr.unparen = .call span callee arguments spread →
        scan.isNopWrapper callee = false →
        scan.resultsOf expr = (program.types.resultTypes type).map scan.view.disposal) ∧
    ∀ ident ∈ stmt.newNames, ident.isBlank = false → ∃ owner symbol,
      scan.view.objectOf ident = some owner ∧ scan.view.symbol? owner = some symbol ∧
      ∀ disposal, disposal.needed = true →
        scan.bind ident disposal = ⟨Scan.trackedValues ident owner disposal, []⟩ := by
  have ordered := checked_ordered loaded
  have covers := ordered.covers package inProgram numbered inPackage func inFile body present stmt
    inBody
  constructor
  · intro expr member
    obtain ⟨type, typed⟩ := (covers.operands expr member).typeOf
    have seen : scan.view.typeOf expr.unparen = some type := by rw [view]; exact typed
    refine ⟨type, seen, fun span callee arguments spread call noWrapper => ?_⟩
    rw [Scan.resultsOf_of_typeOf call noWrapper seen, view]
  · intro ident member named
    obtain ⟨owner, found⟩ := covers.newNames.objectOf member named
    have seen : scan.view.objectOf ident = some owner := by rw [view]; exact found
    have declared := ordered.objects package inProgram numbered.id ident owner found
    refine ⟨owner, program.symbols.symbols[owner.index], seen, ?_, fun disposal needed =>
      Scan.bind_of_objectOf named seen needed⟩
    rw [view]
    exact Array.getElem?_eq_getElem declared

/-- In `use` of the handover package, `c := new()` gets its type and its
declaration. -/
theorem handover_scan_informed :
    ∃ program, loadProgram handoverSettings handoverTree [] = .ok program ∧
      ∃ package ∈ program.packages, ∃ numbered ∈ package.files,
      ∃ func ∈ numbered.file.functions, ∃ body, func.body = some body ∧
      ∃ stmt ∈ body.stmts, ∃ expr ∈ stmt.operands, ∃ ident ∈ stmt.newNames,
        ident.name = "c" ∧
        (∃ type, package.info.typeOf numbered.id expr.unparen = some type) ∧
        ∃ owner symbol, package.info.objectOf numbered.id ident = some owner ∧
          program.symbols.get? owner = some symbol := by
  have binds : ((loadProgram handoverSettings handoverTree []).toOption.any fun program =>
      program.packages.any fun package => package.files.any fun numbered =>
        numbered.file.functions.any fun func => func.body.any fun body =>
          body.stmts.any fun stmt => !stmt.operands.isEmpty &&
            stmt.newNames.any fun ident => ident.name == "c") = true := by decide +kernel
  cases loaded : loadProgram handoverSettings handoverTree [] with
  | error failure =>
    rw [loaded] at binds
    cases binds
  | ok program =>
    rw [loaded] at binds
    simp only [Except.toOption, Option.any_some, List.any_eq_true, Option.any_eq_true,
      Bool.and_eq_true, Bool.not_eq_true', List.isEmpty_eq_false_iff_exists_mem, beq_iff_eq] at binds
    obtain ⟨package, inProgram, numbered, inPackage, func, inFile, body, present, stmt, inBody,
      ⟨expr, operand⟩, ident, isNew, name⟩ := binds
    obtain ⟨types, owners⟩ := scan_informed loaded inProgram inPackage inFile present inBody
      ⟨⟨program, package, numbered.id⟩, {}, fun _ => false⟩ rfl
    obtain ⟨type, typed, _⟩ := types expr operand
    obtain ⟨owner, symbol, found, declared, _⟩ :=
      owners ident isNew (by simp [Ident.isBlank, name])
    exact ⟨program, rfl, package, inProgram, numbered, inPackage, func, inFile, body, present,
      stmt, inBody, expr, operand, ident, isNew, name, ⟨type, typed⟩, owner, symbol, found,
      declared⟩

end Program

end Unclosed
