import Mathlib.Logic.Relation
import Unclosed.Proofs.BuiltTables
import Unclosed.Types.Universe

/-!
What a run of operations does to a type table.  A type keeps its kind, and of a named
type only the methods and what it stands for change.  The type behind a name is found
in one step, and an element has one pointer and one slice.
-/

namespace Unclosed

namespace TypeKind

def isPlain : TypeKind → Bool
  | named _ | pointer _ | slice _ => false
  | _ => true

def Keeps : TypeKind → TypeKind → Prop
  | named type, later => ∃ underlying added,
      later = named { type with underlying, methods := type.methods ++ added }
  | kind, later => later = kind

theorem Keeps.refl (kind : TypeKind) : kind.Keeps kind := by
  cases kind with
  | named type => exact ⟨type.underlying, [], by rw [List.append_nil]⟩
  | _ => exact rfl

theorem Keeps.trans {first second third : TypeKind} (keeps : first.Keeps second)
    (further : second.Keeps third) : first.Keeps third := by
  cases first with
  | named type =>
    obtain ⟨underlying, added, rfl⟩ := keeps
    obtain ⟨next, more, rfl⟩ := further
    exact ⟨next, added ++ more, by rw [List.append_assoc]⟩
  | _ =>
    cases keeps
    exact further

end TypeKind

namespace TypeTable

variable {table later : TypeTable}

/-! ### Operations -/

/-- One operation.  Named types, pointers and slices are made by operations of their
own, and a named type gets to stand for a type of the table. -/
inductive Step (table : TypeTable) : TypeTable → Prop
  | alloc (kind : TypeKind) (plain : kind.isPlain = true) : Step table (table.alloc kind).2
  | newNamed (package name : String) : Step table (table.newNamed package name).2
  | setUnderlying (id type : TypeId) (inside : type.index < table.size) :
      Step table (table.setUnderlying id type)
  | addMethod (id : TypeId) (method : Method) : Step table (table.addMethod id method)
  | pointerTo (elem : TypeId) : Step table (table.pointerTo elem).2
  | sliceOf (elem : TypeId) : Step table (table.sliceOf elem).2
  | tuple (elems : List TypeId) : Step table (table.tuple elems).2

abbrev Runs : TypeTable → TypeTable → Prop := Relation.ReflTransGen Step

theorem Runs.built (runs : Runs initial table) : table.Built := by
  induction runs with
  | refl => exact .initial
  | tail _ step built =>
    cases step with
    | alloc kind plain => exact built.alloc kind (by rintro type rfl; cases plain)
    | newNamed package name => exact built.newNamed package name
    | setUnderlying id type inside => exact built.setUnderlying id type inside
    | addMethod id method => exact built.addMethod id method
    | pointerTo elem => exact built.pointerTo elem
    | sliceOf elem => exact built.sliceOf elem
    | tuple elems => exact built.tuple elems

/-- The two forms of types that are made once for each element. -/
inductive Form where
  | pointer
  | slice

namespace Form

def kind : Form → TypeId → TypeKind
  | pointer => .pointer
  | slice => .slice

def shared : Form → TypeTable → List (TypeId × TypeId)
  | pointer => TypeTable.pointers
  | slice => TypeTable.slices

def make : Form → TypeTable → TypeId → TypeId × TypeTable
  | pointer => TypeTable.pointerTo
  | slice => TypeTable.sliceOf

theorem kind_inj {form other : Form} {elem elem' : TypeId} :
    form.kind elem = other.kind elem' ↔ form = other ∧ elem = elem' := by
  cases form <;> cases other <;> simp [kind]

theorem lookup_make (form : Form) (table : TypeTable) (elem : TypeId) :
    (form.shared (form.make table elem).2).lookup elem = some (form.make table elem).1 := by
  cases form with
  | pointer =>
    dsimp only [shared, make, pointerTo]
    split
    · assumption
    · exact List.lookup_cons_self
  | slice =>
    dsimp only [shared, make, sliceOf]
    split
    · assumption
    · exact List.lookup_cons_self

end Form

/-- The later table has one type more, which is listed if it has a shared form. -/
structure Adds (table later : TypeTable) (kind : TypeKind) : Prop where
  kinds : later.kinds = (table.alloc kind).2.kinds
  shared : ∀ form elem id, (Form.shared form later).lookup elem = some id ↔
    (form.shared table).lookup elem = some id ∨ kind = form.kind elem ∧ id = ⟨table.size⟩

theorem Adds.alloc {kind : TypeKind} (unshared : ∀ form elem, kind ≠ Form.kind form elem) :
    Adds table (table.alloc kind).2 kind where
  kinds := rfl
  shared form elem id := by
    rw [or_iff_left fun same => unshared form elem same.1]
    cases form <;> exact Iff.rfl

theorem lookup_cons_iff {entries : List (TypeId × TypeId)} {elem made : TypeId}
    (absent : entries.lookup elem = none) (asked id : TypeId) :
    ((elem, made) :: entries).lookup asked = some id ↔
      entries.lookup asked = some id ∨ elem = asked ∧ id = made := by
  by_cases same : asked = elem
  · subst same
    simp [absent, eq_comm]
  · have apart : (asked == elem) = false := by simpa using same
    rw [List.lookup_cons, apart, or_iff_left fun equal => same equal.1.symm]

theorem Step.change (step : Step table later) :
    later = table ∨ (∃ kind, Adds table later kind) ∨
      ∃ id change, later = table.modifyNamed id change ∧
        ∀ type, (TypeKind.named type).Keeps (.named (change type)) := by
  cases step with
  | alloc kind plain =>
    refine .inr (.inl ⟨kind, .alloc fun form elem => ?_⟩)
    rintro rfl
    cases form <;> cases plain
  | newNamed package name =>
    exact .inr (.inl ⟨_, .alloc fun form elem same => by cases form <;> cases same⟩)
  | setUnderlying id type inside =>
    exact .inr (.inr ⟨id, _, rfl, fun before => ⟨_, [], by rw [List.append_nil]⟩⟩)
  | addMethod id method =>
    exact .inr (.inr ⟨id, _, rfl, fun before => ⟨before.underlying, [method], rfl⟩⟩)
  | pointerTo elem =>
    unfold TypeTable.pointerTo
    split
    · exact .inl rfl
    · next absent =>
      refine .inr (.inl ⟨.pointer elem, rfl, fun form asked id => ?_⟩)
      cases form with
      | pointer =>
        rw [Form.kind, TypeKind.pointer.injEq]
        exact lookup_cons_iff absent asked id
      | slice => simp [Form.kind, Form.shared, TypeTable.alloc]
  | sliceOf elem =>
    unfold TypeTable.sliceOf
    split
    · exact .inl rfl
    · next absent =>
      refine .inr (.inl ⟨.slice elem, rfl, fun form asked id => ?_⟩)
      cases form with
      | pointer => simp [Form.kind, Form.shared, TypeTable.alloc]
      | slice =>
        rw [Form.kind, TypeKind.slice.injEq]
        exact lookup_cons_iff absent asked id
  | tuple elems =>
    rcases table.tuple_cases elems with same | added
    · exact .inl same
    · rw [added]
      exact .inr (.inl ⟨_, .alloc fun form elem same => by cases form <;> cases same⟩)

theorem Adds.get {kind : TypeKind} (adds : Adds table later kind) (id : TypeId) :
    later.get id = if id.index = table.size then kind else table.get id := by
  rw [← get_alloc, TypeTable.get, TypeTable.get, adds.kinds]

/-! ### Kept kinds -/

theorem Step.keeps (step : Step table later) {id : TypeId} (inside : id.index < table.size) :
    id.index < later.size ∧ (table.get id).Keeps (later.get id) := by
  rcases step.change with rfl | ⟨kind, adds⟩ | ⟨changed, change, rfl, keeps⟩
  · exact ⟨inside, .refl _⟩
  · have size_eq : later.size = table.size + 1 := by
      rw [size, adds.kinds, ← table.alloc_size kind, size]
    rw [adds.get, if_neg (Nat.ne_of_lt inside), size_eq]
    exact ⟨Nat.lt_succ_of_lt inside, .refl _⟩
  · rw [modifyNamed_size, get_modifyNamed]
    refine ⟨inside, ?_⟩
    cases table.get id with
    | named type =>
      dsimp only
      split
      · exact keeps type
      · exact .refl _
    | _ => exact .refl _

theorem Runs.keeps (runs : Runs table later) {id : TypeId} (inside : id.index < table.size) :
    id.index < later.size ∧ (table.get id).Keeps (later.get id) := by
  induction runs with
  | refl => exact ⟨inside, .refl _⟩
  | tail _ step ih => exact ⟨(step.keeps ih.1).1, ih.2.trans (step.keeps ih.1).2⟩

/-! ### Shared types -/

/-- The types made for elements are all types of their form, each made once. -/
def Interned (table : TypeTable) : Prop :=
  ∀ form elem id, (Form.shared form table).lookup elem = some id ↔ table.get id = form.kind elem

theorem initial_interned : initial.Interned := by
  intro form elem id
  have empty : (form.shared initial).lookup elem = none := by cases form <;> rfl
  rw [empty]
  refine iff_of_false (by simp) fun kind => ?_
  rcases initial_get id with found | ⟨_, found⟩ | found <;> rw [found] at kind <;>
    cases form <;> cases kind

theorem Step.interned (step : Step table later) (interned : table.Interned) : later.Interned := by
  intro form elem id
  rcases step.change with rfl | ⟨kind, adds⟩ | ⟨changed, change, rfl, _⟩
  · exact interned form elem id
  · rw [adds.shared, adds.get, interned form elem id]
    by_cases last : id.index = table.size
    · -- The place was empty before.
      have newest : id = ⟨table.size⟩ := by cases id; cases last; rfl
      have outside : table.get id = .invalid := by simp [get, size, last]
      rw [if_pos last, outside, or_iff_right (by cases form <;> simp [Form.kind])]
      exact and_iff_left newest
    · rw [if_neg last, or_iff_left fun added => last (by rw [added.2])]
  · have entries : form.shared (table.modifyNamed changed change) = form.shared table := by
      cases form with
      | pointer => exact table.modifyNamed_pointers changed change
      | slice => exact table.modifyNamed_slices changed change
    rw [entries, interned form elem id, get_modifyNamed]
    cases form <;> cases table.get id <;> simp [Form.kind]

theorem Runs.interned (runs : Runs initial table) : table.Interned := by
  induction runs with
  | refl => exact initial_interned
  | tail _ step interned => exact step.interned interned

/-- A type that was made for an element is the answer to that question alone, at any
later time. -/
theorem Runs.make_eq_iff {form : Form} {elem : TypeId} (made : Runs initial table)
    (runs : Runs (form.make table elem).2 later) (asked : Form) (other : TypeId) :
    (asked.make later other).1 = (form.make table elem).1 ↔ asked = form ∧ other = elem := by
  have step (form : Form) (table : TypeTable) (elem : TypeId) :
      Step table (form.make table elem).2 := by
    cases form with
    | pointer => exact .pointerTo elem
    | slice => exact .sliceOf elem
  have start : Runs initial (form.make table elem).2 := made.tail (step form table elem)
  have first : (form.make table elem).2.get (form.make table elem).1 = form.kind elem :=
    (Runs.interned start form elem _).mp (form.lookup_make table elem)
  have inside : (form.make table elem).1.index < (form.make table elem).2.size := by
    apply index_lt_of_get
    rw [first]
    cases form <;> exact fun impossible => by cases impossible
  have asks : Runs (form.make table elem).2 (asked.make later other).2 :=
    runs.tail (step asked later other)
  have kept := (Runs.keeps asks inside).2
  rw [first] at kept
  have still : (asked.make later other).2.get (form.make table elem).1 = form.kind elem := by
    cases form <;> exact kept
  have answered := Runs.interned (start.trans asks) asked other (form.make table elem).1
  rw [asked.lookup_make, still, Option.some_inj, Form.kind_inj] at answered
  rw [answered]
  exact and_congr eq_comm eq_comm

/-! ### Words

Types and symbols are named by 32-bit words.  As long as a table has fewer than 2^32
entries, words and places come to the same. -/

theorem ofNat_eq_iff {size first second : Nat} (fits : size < UInt32.size) (inside : first < size)
    (other : second < size) : UInt32.ofNat first = UInt32.ofNat second ↔ first = second := by
  refine ⟨fun same => ?_, fun same => by rw [same]⟩
  have words := congrArg UInt32.toNat same
  rwa [UInt32.toNat_ofNat_of_lt' (Nat.lt_trans inside fits),
    UInt32.toNat_ofNat_of_lt' (Nat.lt_trans other fits)] at words

theorem Runs.word_eq_iff {id other : TypeId} (runs : Runs table later)
    (fits : later.size < UInt32.size) (inside : id.index < table.size)
    (there : other.index < later.size) :
    UInt32.ofNat other.index = UInt32.ofNat id.index ↔ other = id := by
  rw [ofNat_eq_iff fits there (runs.keeps inside).1]
  cases id
  cases other
  exact TypeId.mk.injEq .. ▸ Iff.rfl

theorem symbol_word_eq_iff {symbols : SymbolTable} {id other : SymbolId}
    (fits : symbols.size < UInt32.size) (inside : id.index < symbols.size)
    (there : other.index < symbols.size) :
    UInt32.ofNat other.index = UInt32.ofNat id.index ↔ other = id := by
  rw [ofNat_eq_iff fits there inside]
  cases id
  cases other
  exact SymbolId.mk.injEq .. ▸ Iff.rfl

/-! ### Whole runs -/

/-- Whatever operations are run, types keep their kinds, no named type stands on a
named one, so that the chase behind a name ends at once, and each element has one
pointer and one slice, which are those of no other element. -/
theorem runs_keep_table (made : Runs initial table) (runs : Runs table later) :
    (∀ id, id.index < table.size → (table.get id).Keeps (later.get id)) ∧
      (∀ id type, later.get id = .named type → ¬ later.IsNamed type.underlying) ∧
      (∀ id, ¬ later.IsNamed (later.underlying id) ∧
        later.underlying (later.underlying id) = later.underlying id ∧
        ∀ bound, later.underlyingWithin (bound + 1) id = later.underlying id) ∧
      ∀ form elem, Runs (Form.make form table elem).2 later → ∀ asked other,
        (Form.make asked later other).1 = (form.make table elem).1 ↔
          asked = form ∧ other = elem := by
  have settled : later.Settled := (Runs.built (made.trans runs)).settled
  refine ⟨fun id inside => (runs.keeps inside).2, settled.unnamed, fun id => ?_,
    fun form elem between => made.make_eq_iff between⟩
  have unnamed := settled.underlying_unnamed id
  refine ⟨unnamed, underlying_of_unnamed unnamed, fun bound => ?_⟩
  by_cases named : later.IsNamed id
  · obtain ⟨type, kind⟩ := named
    rw [settled.underlying_of_named kind, settled.underlyingWithin_of_named kind]
  · rw [underlying_of_unnamed named, underlyingWithin_of_unnamed named]

theorem universe_runs : Runs initial Universe.initialTypes :=
  (((((Relation.ReflTransGen.refl.tail (.alloc _ rfl)).tail (.alloc _ rfl)).tail
    (.newNamed "" "error")).tail (.setUnderlying _ _ (by decide +kernel))).tail (.alloc _ rfl))

def redeclared : TypeTable :=
  (Universe.initialTypes.pointerTo Universe.errorType).2.setUnderlying Universe.errorType
    Universe.errorType

theorem redeclared_error_kept :
    Runs initial Universe.initialTypes ∧ Runs Universe.initialTypes redeclared ∧
      (redeclared.pointerTo Universe.errorType).1 =
        (Universe.initialTypes.pointerTo Universe.errorType).1 ∧
      (redeclared.sliceOf Universe.errorType).1 ≠
        (Universe.initialTypes.pointerTo Universe.errorType).1 := by
  have later : Runs (Universe.initialTypes.pointerTo Universe.errorType).2 redeclared :=
    Relation.ReflTransGen.refl.tail (.setUnderlying _ _ (by decide +kernel))
  have runs : Runs Universe.initialTypes redeclared := .head (.pointerTo _) later
  have answers := (runs_keep_table universe_runs runs).2.2.2 .pointer Universe.errorType later
  refine ⟨universe_runs, runs, (answers .pointer _).mpr ⟨rfl, rfl⟩, fun same => ?_⟩
  cases ((answers .slice _).mp same).1

end TypeTable
end Unclosed
