import Unclosed.Proofs.TypingBodies

/-!
What checking does to the state, for the declarations of a file.  The names of all files are
collected first; then types, signatures and values get their turns.  The laws of a regime say
what the steps do that only a package makes, and which names have been collected.
-/

namespace Unclosed

/-! ### Declared names -/

def Ident.declared (kind : SymbolKind) (ident : Ident) : List (String × SymbolKind) :=
  if ident.isBlank then [] else [(ident.name, kind)]

def FuncDecl.declared (func : FuncDecl) : List (String × SymbolKind) :=
  if func.receiver.isSome || func.name.name == "init" then [] else func.name.declared .func

def TopLevel.declared : TopLevel → List (String × SymbolKind)
  | .func function => function.declared
  | .decl (.type specs) => specs.flatMap fun spec => spec.name.declared .typeName
  | .decl (.var specs) => (specs.flatMap ValueSpec.names).flatMap (Ident.declared .var)
  | .decl (.const specs) => (specs.flatMap ValueSpec.names).flatMap (Ident.declared .const)

namespace Typing

/-! ### Laws -/

structure PackageLaws (environment : Environment) extends Laws environment where
  settles : Settles
  /-- The names that the package has behind these declarations. -/
  Collected : List (String × SymbolKind) → TypingState → Bindings → Prop
  collected_mono : ∀ {declared state next names}, Step state next →
    Collected declared state names → Collected declared next names
  collectFunction : ∀ {declared base scope names} (func : FuncDecl), Fits base scope →
    Collected declared base names → toRegime.Meets base (collectFunction func names)
      (Collected (declared ++ func.declared))
  collectValue : ∀ {declared base scope names} (kind : SymbolKind) (ident : Ident),
    Fits base scope → Collected declared base names →
    toRegime.Meets base (declare kind ident true none >>= declareName names ident)
      (Collected (declared ++ ident.declared kind))
  collectType : ∀ {declared base scope names} (name : Ident) (isAlias : Bool), Fits base scope →
    Collected declared base names →
    toRegime.Meets base (declareTypeName true name isAlias >>= declareName names name)
      (Collected (declared ++ name.declared .typeName))
  completeType : ∀ {base name} {isAlias : Bool} {type},
    Permits ⟨name, if isAlias then .plain else .newType⟩ → Seen type →
    toRegime.Meets base (completeType name isAlias type) fun _ _ => True
  declareMethod : ∀ {base scope func receiver type}, Fits base scope →
    Permits ⟨func.name, .function⟩ → (∀ mention ∈ receiver.type.mentions, Permits mention) →
    Seen type →
    toRegime.Meets base (declareMethod scope.packageNames func receiver type) fun _ _ => True
  settleFunction : ∀ {state : TypingState} {name : Ident} {id type}, Sound state →
    Permits ⟨name, .function⟩ → Seen type →
    state.info.defs.get? ⟨environment.file, name.span⟩ = some id →
    Step state { state with symbols := state.symbols.modify id fun entry => { entry with type } }

variable {environment : Environment} {laws : PackageLaws environment} {base : TypingState}
  {scope : Scope} {names : Bindings} {declared : List (String × SymbolKind)}

/-! ### Collected names -/

theorem collect_nil (collected : laws.Collected declared base names) :
    laws.Meets base (pure names) (laws.Collected (declared ++ [])) := by
  rw [List.append_nil]
  exact .pure fun _ step => laws.collected_mono step collected

/-- One declaration after another. -/
theorem collect_append (fits : laws.Fits base scope) {added more : List (String × SymbolKind)}
    {first : Typing Bindings} {second : Bindings → Typing Bindings}
    (collects : laws.Meets base first (laws.Collected (declared ++ added)))
    (later : ∀ {declared base names}, laws.Fits base scope →
      laws.Collected declared base names →
        laws.Meets base (second names) (laws.Collected (declared ++ more))) :
    laws.Meets base (first >>= second) (laws.Collected (declared ++ (added ++ more))) := by
  rw [← List.append_assoc]
  exact collects.bind fun _ _ step => later (laws.fits_mono step fits)

section Collected

variable (fits : laws.Fits base scope) (collected : laws.Collected declared base names)
include fits collected

theorem collectValueNames_meets (kind : SymbolKind) (idents : List Ident) :
    laws.Meets base (collectValueNames kind idents names)
      (laws.Collected (declared ++ idents.flatMap (Ident.declared kind))) := by
  induction idents generalizing names base declared with
  | nil => exact collect_nil collected
  | cons ident later ih =>
    exact collect_append fits (laws.collectValue kind ident fits collected) ih

theorem collectTypeNames_meets (specs : List TypeSpec) :
    laws.Meets base (collectTypeNames specs names)
      (laws.Collected (declared ++ specs.flatMap fun spec => spec.name.declared .typeName)) := by
  induction specs generalizing names base declared with
  | nil => exact collect_nil collected
  | cons spec later ih =>
    exact collect_append fits (laws.collectType spec.name spec.isAlias fits collected) ih

theorem collectNames_meets (decls : List TopLevel) :
    laws.Meets base (collectNames decls names)
      (laws.Collected (declared ++ decls.flatMap TopLevel.declared)) := by
  induction decls generalizing names base declared with
  | nil => exact collect_nil collected
  | cons decl later ih =>
    cases decl with
    | func func => exact collect_append fits (laws.collectFunction func fits collected) ih
    | decl decl =>
      cases decl with
      | type specs => exact collect_append fits (collectTypeNames_meets fits collected specs) ih
      | var specs => exact collect_append fits (collectValueNames_meets fits collected .var _) ih
      | const specs =>
        exact collect_append fits (collectValueNames_meets fits collected .const _) ih

end Collected

/-! ### Types, signatures and values -/

variable (laws) (fits : laws.Fits base scope)
include fits

theorem resolveTypeSpecs_meets (specs : List TypeSpec)
    (allows : laws.Allows (typeSpecMentions specs)) :
    laws.Looks base scope (resolveTypeSpecs specs) fun _ _ => True := by
  induction specs with
  | nil => exact .pure fun _ _ => trivial
  | cons spec later ih =>
    cases spec with
    | mk name isAlias type span =>
      rw [typeSpecMentions, Laws.allows_cons, Laws.allows_append] at allows
      exact .seq (resolveType_meets type allows.2.1 fits) fun _ sees =>
        .seq (.lift (laws.completeType allows.1 sees)) fun _ _ => ih allows.2.2

theorem resolveTypes_meets (decls : List TopLevel)
    (allows : laws.Allows (decls.flatMap TopLevel.mentions)) :
    laws.Looks base scope (resolveTypes decls) fun _ _ => True := by
  induction decls with
  | nil => exact .pure fun _ _ => trivial
  | cons decl later ih =>
    rw [List.flatMap_cons, Laws.allows_append] at allows
    have others := ih allows.2
    cases decl with
    | func func => exact others
    | decl decl =>
      cases decl with
      | type specs =>
        have own := allows.1
        rw [TopLevel.mentions, Decl.mentions] at own
        exact .seq (resolveTypeSpecs_meets laws fits specs own) fun _ _ => others
      | _ => exact others

theorem resolveFunction_meets (func : FuncDecl) (allows : laws.Allows func.mentions) :
    laws.Looks base scope (resolveFunction func) fun _ _ => True := by
  simp only [FuncDecl.mentions, Laws.allows_append, Laws.allows_cons] at allows
  obtain ⟨⟨⟨allowsReceiver, permits, _⟩, allowsSignature⟩, _⟩ := allows
  refine .seq (resolveSignature_meets func.signature allowsSignature fits) fun type sees => ?_
  split
  · next receiver isMethod =>
    have allowsType : laws.Allows receiver.type.mentions := by
      cases receiver
      simp only [isMethod, Option.toList_some, fieldMentions, Laws.allows_append]
        at allowsReceiver
      exact allowsReceiver.1.2
    exact .get (.lift (laws.declareMethod fits permits allowsType sees))
  · exact .lift (settleName_meets fun sound => laws.settleFunction sound permits sees)

theorem resolveFunctions_meets (functions : List FuncDecl)
    (allows : ∀ func ∈ functions, laws.Allows func.mentions) :
    laws.Looks base scope (resolveFunctions functions) fun _ _ => True := by
  induction functions with
  | nil => exact .pure fun _ _ => trivial
  | cons func later ih =>
    rw [List.forall_mem_cons] at allows
    exact .seq (resolveFunction_meets laws fits func allows.1) fun _ _ => ih allows.2

theorem checkValues_meets (package : scope.isPackage = true) (decls : List TopLevel)
    (allows : laws.Allows (decls.flatMap TopLevel.mentions)) :
    laws.Looks base scope (checkValues decls) fun _ _ => True := by
  have hosts : laws.Hosts base scope := ⟨fits, fun _ => laws.settles⟩
  -- There is no block here that could get more names.
  have stays {adds : List String → List Ident} {action : Checker Unit}
      (moves : laws.Moves base scope action fun state _ next =>
        laws.Follows adds base scope state next) :
      laws.Looks base scope action fun _ _ => True :=
    moves.weaken fun _ _ _ _ follows => ⟨(laws.grows follows).stays package, trivial⟩
  induction decls with
  | nil => exact .pure fun _ _ => trivial
  | cons decl later ih =>
    rw [List.flatMap_cons, Laws.allows_append] at allows
    have others := ih allows.2
    have own := allows.1
    cases decl with
    | func func => exact others
    | decl decl =>
      cases decl with
      | var specs =>
        rw [TopLevel.mentions, Decl.mentions] at own
        exact .seq (stays (checkVars_meets specs own hosts)) fun _ _ => others
      | const specs =>
        rw [TopLevel.mentions, Decl.mentions] at own
        exact .seq (stays (checkConsts_meets specs own hosts (by simp))) fun _ _ => others
      | type specs => exact others

end Typing

end Unclosed
