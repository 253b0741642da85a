import Unclosed.Proofs.DisposerSearch

/-!
Packages with the same declarations in another order.  Of its package a view
asks only what was recorded about it, so reordering the declarations reorders
the candidates and changes nothing about each of them.
-/

namespace Unclosed

def Package.declarations (package : Package) : List (FileId × FuncDecl) :=
  package.files.flatMap fun file => file.file.functions.map fun func => (file.id, func)

namespace FileView

structure SameRecords (first second : FileView) : Prop where
  program : first.program = second.program
  info : first.package.info = second.package.info
  file : first.file = second.file

namespace SameRecords

variable {first second : FileView}

variable (same : SameRecords first second)
include same

theorem symm : SameRecords second first :=
  ⟨same.program.symm, same.info.symm, same.file.symm⟩

theorem symbol?_eq : first.symbol? = second.symbol? := by
  funext id
  unfold symbol?
  rw [same.program]

theorem objectOf_eq : first.objectOf = second.objectOf := by
  funext ident
  unfold objectOf
  rw [same.info, same.file]

theorem disposal_eq : first.disposal = second.disposal := by
  funext type
  unfold disposal
  rw [same.program]

theorem callee?_eq : first.callee? = second.callee? := by
  funext callee
  unfold callee?
  rw [same.info, same.file, same.symbol?_eq]

theorem selectsField_eq : first.selectsField = second.selectsField := by
  funext span
  unfold selectsField
  rw [same.info, same.file]

theorem receiver?_eq : first.receiver? = second.receiver? := by
  funext callee
  unfold receiver? selectsMethod
  rw [same.info, same.file]

theorem accessPath?_eq (expr : Expr) : first.accessPath? expr = second.accessPath? expr := by
  fun_induction accessPath? first expr with
  | case1 name =>
    simp only [accessPath?, same.objectOf_eq, same.symbol?_eq]
  | case2 span operand name selected ih =>
    rw [same.selectsField_eq] at selected
    simp only [accessPath?, selected, if_true, ih]
  | case3 span operand name unselected =>
    rw [same.selectsField_eq] at unselected
    simp only [accessPath?, unselected, Bool.false_eq_true, if_false]
  | case4 span operand ih | case5 span operand ih | case6 span operand ih =>
    simpa only [accessPath?] using ih
  | case7 expr notIdent notSelector notParen notStar notAddress =>
    rw [accessPath?.eq_def]
    split
    · exact (notIdent _ rfl).elim
    · exact (notSelector _ _ _ rfl).elim
    · exact (notParen _ _ rfl).elim
    · exact (notStar _ _ rfl).elim
    · exact (notAddress _ _ rfl).elim
    · rfl

theorem disposableParams_eq (params : List Field) (types : List TypeId) :
    Summarizer.disposableParams first params types =
      Summarizer.disposableParams second params types := by
  unfold Summarizer.disposableParams
  rw [same.objectOf_eq, same.disposal_eq]

theorem candidate?_eq (func : FuncDecl) :
    Summarizer.candidate? first func = Summarizer.candidate? second func := by
  unfold Summarizer.candidate? Summarizer.calledSymbols
  rw [same.objectOf_eq, same.symbol?_eq, same.program, same.callee?_eq, same.file]
  simp only [same.disposableParams_eq]

theorem covers (method : String) (known : SymbolId → Bool) (param : SymbolId) (callees : List Expr)
    :
    DisposerSearch.Covers ⟨first, method, known, param⟩ ⟨second, method, known, param⟩ callees := by
  have rooted : DisposerSearch.isRooted ⟨first, method, known, param⟩ =
      DisposerSearch.isRooted ⟨second, method, known, param⟩ := by
    funext expr
    unfold DisposerSearch.isRooted
    rw [same.accessPath?_eq]
  constructor
  · intro callee _ direct
    unfold DisposerSearch.closesDirectly at direct ⊢
    rw [← rooted]
    exact direct
  · intro callee _ arguments handed
    unfold DisposerSearch.handsOver DisposerSearch.isKnownDisposer at handed ⊢
    rw [← rooted, ← same.callee?_eq, ← same.receiver?_eq]
    exact handed

end SameRecords

end FileView

namespace Summarizer

theorem allCandidates_eq (summarizer : Summarizer) :
    summarizer.allCandidates = summarizer.package.declarations.filterMap
      fun declaration => candidate? (summarizer.view declaration.1) declaration.2 := by
  unfold allCandidates Package.declarations
  rw [List.filterMap_flatMap]
  simp only [List.filterMap_map]
  rfl

def onPackage (summarizer : Summarizer) (package : Package) : Summarizer :=
  { summarizer with package }

section Reordered

variable (summarizer : Summarizer) (package : Package)
  (records : package.info = summarizer.package.info)

include records

theorem sameRecords_onPackage (file : FileId) :
    FileView.SameRecords ((summarizer.onPackage package).view file) (summarizer.view file) :=
  ⟨rfl, records, rfl⟩

theorem candidates_perm_of_declarations
    (order : package.declarations.Perm summarizer.package.declarations) :
    (summarizer.onPackage package).candidates.Perm summarizer.candidates := by
  have sameCandidate : (fun declaration : FileId × FuncDecl =>
      candidate? ((summarizer.onPackage package).view declaration.1) declaration.2) =
      fun declaration => candidate? (summarizer.view declaration.1) declaration.2 := by
    funext declaration
    exact (sameRecords_onPackage summarizer package records declaration.1).candidate?_eq
      declaration.2
  unfold candidates
  rw [allCandidates_eq, allCandidates_eq, sameCandidate]
  exact (order.filterMap _).filter _

theorem closesParams_onPackage (known : SymbolId → Bool) (candidate : Candidate) :
    (summarizer.onPackage package).closesParams known candidate =
      summarizer.closesParams known candidate := by
  have same := sameRecords_onPackage summarizer package records candidate.file
  unfold closesParams
  congr 1
  funext param
  cases param with
  | none => rfl
  | some symbol =>
    apply Bool.eq_iff_iff.mpr
    constructor
    · exact DisposerSearch.inBlock_of_covers candidate.body (same.covers _ known symbol _)
    · exact DisposerSearch.inBlock_of_covers candidate.body (same.symm.covers _ known symbol _)

end Reordered

end Summarizer
end Unclosed
