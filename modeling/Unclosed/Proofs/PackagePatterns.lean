import Mathlib.Data.List.DropRight
import Unclosed.Load.Tree
import Unclosed.Proofs.OrderedKeys

/-!
The packages that patterns select.  A pattern stands for a path or for a directory
with all that is below it.  Each pattern must select a package; what is selected is
listed in ascending order, so the order of the patterns does not matter.
-/

namespace Unclosed

variable {kept trimmed path : List Char} {text package : String} {tree : SourceTree}

namespace PackagePattern

/-! ### What a pattern covers -/

def Unslashed (text kept : List Char) : Prop :=
  (∃ count, text = kept ++ List.replicate count '/') ∧ kept.getLast? ≠ some '/'

def Trims (text trimmed : List Char) : Prop :=
  ∃ count rest, text = (List.replicate count ['.', '/']).flatten ++ rest
    ∧ ¬ ['.', '/'] <+: rest ∧ Unslashed rest trimmed

/-- A trimmed pattern covers its own path or, if it ends in three dots, the directory before
them and what is below it. -/
inductive Covers : List Char → List Char → Prop where
  | exact {path : List Char} (plain : ¬ ['.', '.', '.'] <:+ path) : Covers path path
  | all {slashes path : List Char} (bare : Unslashed slashes []) :
    Covers (slashes ++ ['.', '.', '.']) path
  | root {text directory : List Char} (bare : Unslashed text directory) :
    Covers (text ++ ['.', '.', '.']) directory
  | below {text directory rest : List Char} (bare : Unslashed text directory) :
    Covers (text ++ ['.', '.', '.']) (directory ++ '/' :: rest)

def Matches (text package : String) : Prop :=
  ∃ trimmed, Trims text.toList trimmed ∧ Covers trimmed package.toList

/-! ### Trimming -/

theorem bare_iff :
    kept.getLast? ≠ some '/' ↔ ∀ nonempty : kept ≠ [], ¬ (kept.getLast nonempty == '/') = true := by
  cases kept with
  | nil => simp
  | cons first later => simp [List.getLast?_eq_some_getLast]

theorem dropEndSlashes_iff {text : List Char} :
    dropEndSlashes text = kept ↔ Unslashed text kept := by
  change text.rdropWhile (· == '/') = kept ↔ _
  rw [Unslashed, bare_iff]
  constructor
  · rintro rfl
    refine ⟨⟨(text.rtakeWhile (· == '/')).length, ?_⟩, List.rdropWhile_last_not _ _⟩
    have slashes : text.rtakeWhile (· == '/') =
        List.replicate (text.rtakeWhile (· == '/')).length '/' := by
      refine List.eq_replicate_iff.mpr ⟨rfl, fun next member => ?_⟩
      simpa using List.mem_rtakeWhile_imp member
    rw [← slashes, List.rdropWhile_append_rtakeWhile]
  · rintro ⟨⟨count, rfl⟩, bare⟩
    induction count with
    | zero =>
      rw [List.replicate_zero, List.append_nil]
      exact List.rdropWhile_eq_self_iff.mpr bare
    | succ count ih =>
      rw [List.replicate_succ', ← List.append_assoc, List.rdropWhile_concat_pos _ _ _ (by simp)]
      exact ih

theorem dropDotSlash_of_plain {text : List Char} (plain : ¬ ['.', '/'] <+: text) :
    dropDotSlash text = text := by
  unfold dropDotSlash
  split
  · next rest => exact absurd (List.prefix_append ['.', '/'] rest) plain
  · rfl

theorem dropDotSlash_iff {text rest : List Char} :
    dropDotSlash text = rest ↔
      (∃ count, text = (List.replicate count ['.', '/']).flatten ++ rest)
        ∧ ¬ ['.', '/'] <+: rest := by
  constructor
  · rintro rfl
    fun_induction dropDotSlash text with
    | case1 later ih =>
      obtain ⟨⟨count, whole⟩, plain⟩ := ih
      refine ⟨⟨count + 1, ?_⟩, plain⟩
      rw [List.replicate_succ, List.flatten_cons, List.append_assoc, ← whole]
      rfl
    | case2 text other =>
      refine ⟨⟨0, rfl⟩, ?_⟩
      rintro ⟨later, rfl⟩
      exact other later rfl
  · rintro ⟨⟨count, rfl⟩, plain⟩
    induction count with
    | zero => exact dropDotSlash_of_plain plain
    | succ count ih =>
      rw [List.replicate_succ, List.flatten_cons, List.append_assoc]
      exact ih

theorem trims_iff : Trims text.toList trimmed ↔ trim text = trimmed := by
  rw [trim, dropEndSlashes_iff, Trims]
  constructor
  · rintro ⟨count, rest, whole, plain, unslashed⟩
    rwa [dropDotSlash_iff.mpr ⟨⟨count, whole⟩, plain⟩]
  · intro unslashed
    obtain ⟨⟨count, whole⟩, plain⟩ := dropDotSlash_iff.mp (rfl : dropDotSlash text.toList = _)
    exact ⟨count, _, whole, plain, unslashed⟩

/-! ### Selecting -/

theorem ofTrimmed_dots (text : List Char) :
    ofTrimmed (text ++ ['.', '.', '.']) = below (dropEndSlashes text) := by
  simp [ofTrimmed]

theorem ofTrimmed_plain (plain : ¬ ['.', '.', '.'] <:+ path) : ofTrimmed path = exact path := by
  unfold ofTrimmed
  split
  · next before reversed =>
    refine absurd ⟨before.reverse, ?_⟩ plain
    rw [← List.reverse_reverse path, reversed]
    simp
  · rfl

theorem isBelow_iff {directory : List Char} :
    isBelow directory path = true ↔ path = directory ∨ ∃ rest, path = directory ++ '/' :: rest := by
  fun_induction isBelow directory path with
  | case1 => simp
  | case2 next rest => simp
  | case3 => simp
  | case4 first directory next rest ih =>
    rw [Bool.and_eq_true, ih, beq_iff_eq]
    simp only [List.cons_append, List.cons.injEq, exists_and_left, ← and_or_left, eq_comm]

theorem selects_iff :
    (ofTrimmed trimmed).selects package = true ↔ Covers trimmed package.toList := by
  by_cases dots : ['.', '.', '.'] <:+ trimmed
  · obtain ⟨text, rfl⟩ := dots
    have bare := dropEndSlashes_iff.mp (rfl : dropEndSlashes text = _)
    rw [ofTrimmed_dots, selects, Bool.or_eq_true, List.isEmpty_iff, isBelow_iff]
    generalize package.toList = path
    constructor
    · rintro (empty | same | ⟨rest, lower⟩)
      · exact .all (empty ▸ bare)
      · exact same ▸ .root bare
      · exact lower ▸ .below bare
    · intro covers
      generalize whole : text ++ ['.', '.', '.'] = trimmed at covers
      cases covers with
      | exact plain => exact absurd ⟨text, whole⟩ plain
      | all bare =>
        rw [List.append_cancel_right whole]
        exact .inl (dropEndSlashes_iff.mpr bare)
      | root bare =>
        rw [List.append_cancel_right whole, dropEndSlashes_iff.mpr bare]
        exact .inr (.inl rfl)
      | below bare =>
        rw [List.append_cancel_right whole, dropEndSlashes_iff.mpr bare]
        exact .inr (.inr ⟨_, rfl⟩)
  · rw [ofTrimmed_plain dots, selects, beq_iff_eq]
    generalize package.toList = path
    constructor
    · rintro rfl
      exact .exact dots
    · intro covers
      cases covers with
      | exact plain => rfl
      | all bare | root bare | below bare => exact absurd (List.suffix_append _ _) dots

theorem matches_iff : Matches text package ↔ (ofTrimmed (trim text)).selects package = true := by
  rw [selects_iff]
  constructor
  · rintro ⟨trimmed, trims, covers⟩
    rwa [trims_iff.mp trims]
  · exact fun covers => ⟨_, trims_iff.mpr rfl, covers⟩

/-- A directory before three dots covers itself and what is below it, and no sibling. -/
theorem matches_directory_iff {directory : String}
    (trims : Trims text.toList (directory.toList ++ ['/', '.', '.', '.']))
    (bare : directory.toList.getLast? ≠ some '/') (nonempty : directory ≠ "") :
    Matches text package ↔ package = directory ∨ directory.toList ++ ['/'] <+: package.toList := by
  have base : Unslashed (directory.toList ++ ['/']) directory.toList := ⟨⟨1, rfl⟩, bare⟩
  have dots : directory.toList ++ ['/', '.', '.', '.'] =
      (directory.toList ++ ['/']) ++ ['.', '.', '.'] := by simp
  rw [matches_iff, trims_iff.mp trims, dots, ofTrimmed_dots, dropEndSlashes_iff.mpr base, selects,
    Bool.or_eq_true, List.isEmpty_iff, isBelow_iff, String.toList_inj]
  constructor
  · rintro (empty | same | ⟨rest, lower⟩)
    · exact absurd (String.toList_inj.mp empty) nonempty
    · exact .inl same
    · exact .inr ⟨rest, by rw [lower]; simp⟩
  · rintro (same | ⟨rest, lower⟩)
    · exact .inr (.inl same)
    · exact .inr (.inr ⟨rest, by rw [← lower]; simp⟩)

end PackagePattern

namespace SourceTree

open PackagePattern

variable (files : List (String × TreeFile))

/-! ### Trees of files -/

def ofFiles : SourceTree :=
  files.foldl (fun tree entry => tree.insert entry.1 entry.2) empty

theorem ofFiles_concat (entry : String × TreeFile) :
    ofFiles (files ++ [entry]) = (ofFiles files).insert entry.1 entry.2 := by
  rw [ofFiles, List.foldl_append]
  rfl

theorem paths_ascending : (ofFiles files).paths.Pairwise (· < ·) := by
  apply OrderedMap.keys_pairwise
  induction files using List.reverseRecOn with
  | nil => exact OrderedMap.empty_ascending
  | append_singleton files entry ih =>
    rw [ofFiles_concat]
    exact OrderedMap.modify_ascending ih _ _

theorem mem_paths_insert {other : String} {file : TreeFile} :
    other ∈ (tree.insert package file).paths ↔ other = package ∨ other ∈ tree.paths := by
  rw [paths, paths, insert, OrderedMap.mem_keys_iff, OrderedMap.mem_keys_iff,
    OrderedMap.get?_modify]
  by_cases same : other = package
  · simp [same]
  · simp [same]

theorem mem_paths_ofFiles {files : List (String × TreeFile)} :
    package ∈ (ofFiles files).paths ↔ ∃ file, (package, file) ∈ files := by
  induction files using List.reverseRecOn with
  | nil => simp [ofFiles, paths, empty, OrderedMap.empty, OrderedMap.keys]
  | append_singleton files entry ih =>
    rw [ofFiles_concat, mem_paths_insert, ih]
    simp only [List.mem_append, List.mem_singleton, exists_or, Prod.ext_iff, exists_and_left,
      exists_eq, and_true]
    exact or_comm

/-! ### Expansion -/

def selected (tree : SourceTree) (text : String) : List String :=
  tree.paths.filter (ofTrimmed (trim text)).selects

theorem mem_selected :
    package ∈ tree.selected text ↔ package ∈ tree.paths ∧ Matches text package := by
  rw [selected, List.mem_filter, matches_iff]

/-- The first pattern that selects nothing is reported, if there is one. -/
theorem collect_eq (tree : SourceTree) (patterns : List String) :
    expand.collect tree patterns =
      match patterns.find? fun text => (tree.selected text).isEmpty with
      | some text => .error (.noMatch (String.ofList (trim text)))
      | none => .ok (patterns.flatMap tree.selected) := by
  induction patterns with
  | nil => rfl
  | cons text later ih =>
    rw [expand.collect, List.find?_cons, ih, ← selected]
    cases (tree.selected text).isEmpty with
    | true => rfl
    | false =>
      rw [if_neg Bool.false_ne_true]
      cases later.find? fun text => (tree.selected text).isEmpty <;> rfl

section Expand

variable {tree : SourceTree} {patterns packages : List String}

def Fits (tree : SourceTree) (patterns : List String) : Prop :=
  ∀ text ∈ patterns, ∃ package ∈ tree.paths, Matches text package

theorem selected_isEmpty_iff :
    (tree.selected text).isEmpty = true ↔ ∀ package ∈ tree.paths, ¬ Matches text package := by
  rw [List.isEmpty_iff, List.eq_nil_iff_forall_not_mem]
  simp only [mem_selected, not_and]

theorem selected_nonempty_iff :
    ¬ (tree.selected text).isEmpty = true ↔ ∃ package ∈ tree.paths, Matches text package := by
  rw [selected_isEmpty_iff]
  simp only [not_forall, not_not, exists_prop]

/-- Either all patterns select something, or there is a first one that does not. -/
theorem fits_or_first (tree : SourceTree) (patterns : List String) :
    tree.Fits patterns ∨ ∃ before text after, patterns = before ++ text :: after ∧
      tree.Fits before ∧ ∀ package ∈ tree.paths, ¬ Matches text package := by
  cases found : patterns.find? fun text => (tree.selected text).isEmpty with
  | none =>
    refine .inl fun text member => selected_nonempty_iff.mp ?_
    exact List.find?_eq_none.mp found text member
  | some text =>
    obtain ⟨empty, before, after, whole, fits⟩ := List.find?_eq_some_iff_append.mp found
    have unmatched := selected_isEmpty_iff.mp empty
    refine .inr ⟨before, text, after, whole, fun earlier member => ?_, unmatched⟩
    exact selected_nonempty_iff.mp (by simpa using fits earlier member)

theorem expand_of_first {before after : List String} (fits : tree.Fits before)
    (unmatched : ∀ package ∈ tree.paths, ¬ Matches text package) :
    tree.expand (before ++ text :: after) = .error (.noMatch (String.ofList (trim text))) := by
  have found : ((before ++ text :: after).find? fun text => (tree.selected text).isEmpty) =
      some text := by
    refine List.find?_eq_some_iff_append.mpr
      ⟨selected_isEmpty_iff.mpr unmatched, before, after, rfl, fun earlier member => ?_⟩
    simpa using selected_nonempty_iff.mpr (fits earlier member)
  rw [expand, if_neg (by simp), collect_eq, found]
  rfl

theorem expand_of_fits (fits : tree.Fits patterns) :
    ∃ packages, tree.expand patterns = .ok packages ∧
      (tree.paths.Pairwise (· < ·) → packages.Pairwise (· < ·)) ∧ ∀ package, package ∈ packages ↔
        package ∈ tree.paths ∧ (patterns = [] ∨ ∃ text ∈ patterns, Matches text package) := by
  have none : (patterns.find? fun text => (tree.selected text).isEmpty) = none :=
    List.find?_eq_none.mpr fun text member => selected_nonempty_iff.mpr (fits text member)
  rw [expand, collect_eq, none]
  cases patterns with
  | nil => exact ⟨_, rfl, id, by simp⟩
  | cons first later =>
    refine ⟨_, rfl, fun _ => ascending_pairwise _, fun package => ?_⟩
    rw [mem_ascending, List.mem_flatMap]
    simp only [mem_selected, reduceCtorEq, false_or]
    constructor
    · rintro ⟨text, member, inTree, covers⟩
      exact ⟨inTree, text, member, covers⟩
    · rintro ⟨inTree, text, member, covers⟩
      exact ⟨text, member, inTree, covers⟩

theorem expand_subset (expanded : tree.expand patterns = .ok packages) : packages ⊆ tree.paths := by
  rcases fits_or_first tree patterns with fits | ⟨before, text, after, rfl, fits, unmatched⟩
  · obtain ⟨listed, found, _, members⟩ := expand_of_fits fits
    cases found.symm.trans expanded
    exact fun package member => ((members package).mp member).1
  · cases (expand_of_first fits unmatched).symm.trans expanded

theorem expand_ok_iff (ascends : tree.paths.Pairwise (· < ·)) :
    tree.expand patterns = .ok packages ↔
      tree.Fits patterns ∧ packages.Pairwise (· < ·) ∧ ∀ package, package ∈ packages ↔
        package ∈ tree.paths ∧ (patterns = [] ∨ ∃ text ∈ patterns, Matches text package) := by
  rcases fits_or_first tree patterns with fits | ⟨before, text, after, rfl, fits, unmatched⟩
  · obtain ⟨listed, expanded, ordered, members⟩ := expand_of_fits fits
    rw [expanded]
    constructor
    · rintro ⟨⟩
      exact ⟨fits, ordered ascends, members⟩
    · rintro ⟨_, ordered', members'⟩
      rw [eq_of_ascending (ordered ascends) ordered' fun package => by rw [members, members']]
  · rw [expand_of_first fits unmatched]
    constructor
    · rintro ⟨⟩
    · rintro ⟨allFit, _⟩
      obtain ⟨package, inTree, covers⟩ := allFit text (by simp)
      exact absurd covers (unmatched package inTree)

theorem expand_error_iff {error : LoadError} :
    tree.expand patterns = .error error ↔
      ∃ before text after trimmed, patterns = before ++ text :: after ∧ tree.Fits before ∧
        (∀ package ∈ tree.paths, ¬ Matches text package) ∧ Trims text.toList trimmed ∧
          error = .noMatch (String.ofList trimmed) := by
  constructor
  · intro failed
    rcases fits_or_first tree patterns with fits | ⟨before, text, after, rfl, fits, unmatched⟩
    · obtain ⟨_, expanded, _⟩ := expand_of_fits fits
      cases expanded.symm.trans failed
    · cases (expand_of_first fits unmatched).symm.trans failed
      exact ⟨before, text, after, _, rfl, fits, unmatched, trims_iff.mpr rfl, rfl⟩
  · rintro ⟨before, text, after, trimmed, rfl, fits, unmatched, trims, rfl⟩
    rw [expand_of_first fits unmatched, trims_iff.mp trims]

end Expand

/-- What patterns select among the packages of some files.  An error names the first pattern
that selects none, without the `./` before it and the slashes behind it.  Otherwise exactly the
packages that a pattern selects are listed in ascending order, all of them for no patterns, and
the order and the number of times that patterns are given do not matter.  A directory before
three dots stands for itself and for what is below it. -/
theorem expand_exact (files : List (String × TreeFile)) (patterns : List String) :
    (∀ package, package ∈ (ofFiles files).paths ↔ ∃ file, (package, file) ∈ files)
      ∧ (∀ error, (ofFiles files).expand patterns = .error error ↔
        ∃ before text after trimmed, patterns = before ++ text :: after
          ∧ (ofFiles files).Fits before
          ∧ (∀ package ∈ (ofFiles files).paths, ¬ Matches text package)
          ∧ Trims text.toList trimmed ∧ error = .noMatch (String.ofList trimmed))
      ∧ (∀ packages, (ofFiles files).expand patterns = .ok packages ↔
        (ofFiles files).Fits patterns ∧ packages.Pairwise (· < ·)
          ∧ ∀ package, package ∈ packages ↔ package ∈ (ofFiles files).paths
            ∧ (patterns = [] ∨ ∃ text ∈ patterns, Matches text package))
      ∧ (∀ others packages, (∀ text, text ∈ others ↔ text ∈ patterns) →
        (ofFiles files).expand patterns = .ok packages →
          (ofFiles files).expand others = .ok packages)
      ∧ ∀ text directory : String, Trims text.toList (directory ++ "/...").toList →
        directory ≠ "" → directory.toList.getLast? ≠ some '/' → ∀ package, Matches text package ↔
          package = directory ∨ (directory ++ "/").toList <+: package.toList := by
  have ascends := paths_ascending files
  refine ⟨fun package => mem_paths_ofFiles, fun error => expand_error_iff,
    fun packages => expand_ok_iff ascends, fun others packages same expanded => ?_,
    fun text directory trims nonempty bare package => ?_⟩
  · obtain ⟨fits, ordered, members⟩ := (expand_ok_iff ascends).mp expanded
    refine (expand_ok_iff ascends).mpr
      ⟨fun text member => fits text ((same text).mp member), ordered, fun package => ?_⟩
    have none : others = [] ↔ patterns = [] := by
      simp only [List.eq_nil_iff_forall_not_mem, same]
    simp only [members, same, none]
  · rw [String.toList_append] at trims ⊢
    exact matches_directory_iff trims bare nonempty

/-- The directory and what is below it, not its sibling, however often it is named. -/
theorem directory_pattern_expands :
    let files := [("apple", TreeFile.mk "apple/a.go" ""), ("app/store", ⟨"app/store/s.go", ""⟩),
      ("app", ⟨"app/a.go", ""⟩)]
    (ofFiles files).expand ["./app/...", "app"] = .ok ["app", "app/store"]
      ∧ (ofFiles files).expand ["app", "./app/...", "app"] = .ok ["app", "app/store"]
      ∧ ¬ Matches "./app/..." "apple" := by
  intro files
  obtain ⟨_, _, _, unordered, directories⟩ := expand_exact files ["./app/...", "app"]
  have expanded : (ofFiles files).expand ["./app/...", "app"] = .ok ["app", "app/store"] := by
    rfl
  have trims : Trims "./app/...".toList ("app" ++ "/...").toList :=
    ⟨1, "app/...".toList, by decide, by decide, ⟨0, by decide⟩, by decide⟩
  refine ⟨expanded, unordered _ _ (fun text => by simp; tauto) expanded, ?_⟩
  rw [directories _ "app" trims (by decide) (by decide)]
  decide

end SourceTree
end Unclosed
