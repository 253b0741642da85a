import Mathlib.Data.List.Chain
import Mathlib.Data.List.TakeWhile
import Unclosed.Proofs.ImportLevels

/-!
Import cycles.  What the search reports is a chain of imports that comes back to its
first package.  If it reports nothing, all chains of imports end: when a package is
left, all that it imports was left before, since an import that is still on the path
would have been reported.
-/

namespace Unclosed

def ImportCycle.Closes (cycle : ImportCycle) (graph : ImportGraph) : Prop :=
  ∃ package later, cycle.path = package :: later ∧ later.getLast? = some package ∧
    (package :: later).IsChain fun importer imported => imported ∈ graph.importsOf importer

namespace ImportGraph

variable {path : List String} {package next : String} {state : Search} {bound : Nat}

def follow (graph : ImportGraph) (bound : Nat) (path : List String) (state : Search)
    (next : String) : Search :=
  if !state.visited.contains next then graph.search bound path next state
  else if path.contains next then
    { state with cycles := state.cycles ++ [⟨path.dropWhile (· != next) ++ [next]⟩] }
  else state

theorem search_succ (graph : ImportGraph) (bound : Nat) (path : List String) (package : String)
    (state : Search) :
    graph.search (bound + 1) path package state =
      (graph.importsOf package).foldl (graph.follow bound (path ++ [package]))
        { state with visited := package :: state.visited } := rfl

/-- What one import can do: open another search, close a cycle, or nothing. -/
theorem follow_cases (graph : ImportGraph) (bound : Nat) (path : List String) (state : Search)
    (next : String) :
    (next ∉ state.visited ∧
      graph.follow bound path state next = graph.search bound path next state) ∨
    (next ∈ state.visited ∧ next ∈ path ∧ graph.follow bound path state next =
      { state with cycles := state.cycles ++ [⟨path.dropWhile (· != next) ++ [next]⟩] }) ∨
    (next ∈ state.visited ∧ next ∉ path ∧ graph.follow bound path state next = state) := by
  unfold follow
  by_cases visited : next ∈ state.visited
  · by_cases onPath : next ∈ path
    · exact .inr (.inl ⟨visited, onPath, by simp [visited, onPath]⟩)
    · exact .inr (.inr ⟨visited, onPath, by simp [visited, onPath]⟩)
  · exact .inl ⟨visited, by simp [visited]⟩

/-! ### Reported cycles -/

section Reports

variable {graph : ImportGraph}

theorem closes_dropWhile (chain : (path ++ [package]).IsChain fun importer imported =>
      imported ∈ graph.importsOf importer) (onPath : next ∈ path ++ [package])
    (isImport : next ∈ graph.importsOf package) :
    ImportCycle.Closes ⟨(path ++ [package]).dropWhile (· != next) ++ [next]⟩ graph := by
  obtain ⟨later, cut⟩ : ∃ later, (path ++ [package]).dropWhile (· != next) = next :: later := by
    have found : ¬(path ++ [package]).dropWhile (· != next) = [] := by
      rw [List.dropWhile_eq_nil_iff]
      exact fun differs => absurd (differs next onPath) (by simp)
    obtain ⟨first, later, cut⟩ := List.exists_cons_of_ne_nil found
    have stops := List.head?_dropWhile_not (· != next) (path ++ [package])
    rw [cut] at stops
    have same : first = next := by simpa using stops
    exact ⟨later, by rw [cut, same]⟩
  have behind : (next :: later) <:+ path ++ [package] := cut ▸ List.dropWhile_suffix _
  have ends : (next :: later).getLast? = some package := by
    obtain ⟨before, whole⟩ := behind
    have last := congrArg List.getLast? whole
    rwa [List.getLast?_append_of_ne_nil _ (by simp), List.getLast?_concat] at last
  refine ⟨next, later ++ [next], by rw [cut]; rfl, List.getLast?_concat, ?_⟩
  rw [← List.cons_append]
  refine (chain.suffix behind).append (List.isChain_singleton next) ?_
  rintro last isLast first isFirst
  rw [ends] at isLast
  cases isLast
  cases isFirst
  exact isImport

/-- Every cycle found below a chain of imports closes. -/
theorem search_closes (bound : Nat) (chain : (path ++ [package]).IsChain fun importer imported =>
      imported ∈ graph.importsOf importer) (closed : ∀ cycle ∈ state.cycles, cycle.Closes graph) :
    ∀ cycle ∈ (graph.search bound path package state).cycles, cycle.Closes graph := by
  induction bound generalizing path package state with
  | zero => exact closed
  | succ bound ih =>
    rw [search_succ]
    refine List.foldlRecOn (motive := fun state : Search =>
      ∀ cycle ∈ state.cycles, cycle.Closes graph) _ _ closed ?_
    intro state closed next isImport
    rcases graph.follow_cases bound (path ++ [package]) state next with
      ⟨_, searched⟩ | ⟨_, onPath, found⟩ | ⟨_, _, kept⟩
    · rw [searched]
      refine ih (chain.append (List.isChain_singleton next) ?_) closed
      rintro last isLast first isFirst
      rw [List.getLast?_concat] at isLast
      cases isLast
      cases isFirst
      exact isImport
    · rw [found]
      refine List.forall_mem_append.mpr ⟨closed, ?_⟩
      exact List.forall_mem_singleton.mpr (closes_dropWhile chain onPath isImport)
    · rw [kept]
      exact closed

theorem cycles_close : ∀ cycle ∈ graph.cycles, cycle.Closes graph := by
  refine List.foldlRecOn (motive := fun state : Search =>
    ∀ cycle ∈ state.cycles, cycle.Closes graph) _ _ (by simp) ?_
  intro state closed package _
  split
  · exact closed
  · exact search_closes _ (List.isChain_singleton package) closed

/-- A search along a path: the packages of the path are different and were visited, and what
was found so far goes around once. -/
structure Walks (path : List String) (state : Search) : Prop where
  distinct : path.Nodup
  visited : ∀ package ∈ path, package ∈ state.visited
  simple : ∀ cycle ∈ state.cycles, cycle.path.dropLast.Nodup

theorem search_walks (bound : Nat) (walks : Walks path state) (new : package ∉ state.visited) :
    Walks path (graph.search bound path package state) := by
  induction bound generalizing path package state with
  | zero => exact walks
  | succ bound ih =>
    have entered : Walks (path ++ [package])
        { state with visited := package :: state.visited } := by
      refine ⟨?_, List.forall_mem_append.mpr ⟨?_, by simp⟩, walks.simple⟩
      · refine List.nodup_append.mpr ⟨walks.distinct, List.nodup_singleton package, ?_⟩
        rintro other onPath last isLast rfl
        exact new (List.mem_singleton.mp isLast ▸ walks.visited other onPath)
      · exact fun other onPath => List.mem_cons_of_mem _ (walks.visited other onPath)
    have left : Walks (path ++ [package]) (graph.search (bound + 1) path package state) := by
      rw [search_succ]
      refine List.foldlRecOn (motive := Walks (path ++ [package])) _ _ entered ?_
      intro state walks next _
      rcases graph.follow_cases bound (path ++ [package]) state next with
        ⟨unvisited, searched⟩ | ⟨_, _, found⟩ | ⟨_, _, kept⟩
      · rw [searched]
        exact ih walks unvisited
      · rw [found]
        refine ⟨walks.distinct, walks.visited, List.forall_mem_append.mpr ⟨walks.simple, ?_⟩⟩
        rw [List.forall_mem_singleton, List.dropLast_concat]
        exact walks.distinct.sublist (List.dropWhile_sublist _)
      · rw [kept]
        exact walks
    exact ⟨(List.nodup_append.mp left.distinct).1,
      (List.forall_mem_append.mp left.visited).1, left.simple⟩

theorem cycles_simple : ∀ cycle ∈ graph.cycles, cycle.path.dropLast.Nodup := by
  have walks : Walks [] (graph.packages.foldl (fun (state : Search) package =>
      if state.visited.contains package then state
      else graph.search (graph.imports.size + 1) [] package state) ⟨[], []⟩) := by
    refine List.foldlRecOn (motive := Walks []) _ _ ⟨List.nodup_nil, by simp, by simp⟩ ?_
    intro state walks package _
    split
    · exact walks
    · next unvisited => exact search_walks _ walks (by simpa using unvisited)
  exact walks.simple

end Reports

/-! ### Searches without a report -/

section Silence

variable {graph : ImportGraph}

def Ends (graph : ImportGraph) (package : String) : Prop :=
  Acc (fun imported importer => imported ∈ graph.importsOf importer) package

/-- No chain of imports comes back to a package from which all chains end. -/
theorem Ends.not_returns (ends : graph.Ends package) :
    ¬Relation.TransGen (fun importer imported => imported ∈ graph.importsOf importer)
      package package := by
  -- Each member of the cycle is below itself, so no member is the last.
  induction ends with
  | intro package _ ih =>
    intro returns
    obtain ⟨next, isImport, rest⟩ := Relation.TransGen.head'_iff.mp returns
    exact ih next isImport (.tail' rest isImport)

theorem follow_cycles_prefix (graph : ImportGraph) (searching : ∀ path package state,
      state.cycles <+: (graph.search bound path package state).cycles) (path imports : List String)
    (state : Search) :
    state.cycles <+: (imports.foldl (graph.follow bound path) state).cycles := by
  refine List.foldlRecOn (motive := fun after : Search => state.cycles <+: after.cycles) _ _
    (List.prefix_refl _) ?_
  intro after before next _
  rcases graph.follow_cases bound path after next with
    ⟨_, searched⟩ | ⟨_, _, found⟩ | ⟨_, _, kept⟩
  · rw [searched]
    exact before.trans (searching path next after)
  · rw [found]
    exact before.trans (List.prefix_append _ _)
  · rw [kept]
    exact before

theorem search_cycles_prefix (graph : ImportGraph) (bound : Nat) (path : List String)
    (package : String) (state : Search) :
    state.cycles <+: (graph.search bound path package state).cycles := by
  induction bound generalizing path package state with
  | zero => exact List.prefix_refl _
  | succ bound ih =>
    exact follow_cycles_prefix graph ih (path ++ [package])
      (graph.importsOf package) { state with visited := package :: state.visited }

/-- The packages on a path were visited, and all other visited packages end. -/
structure Settled (graph : ImportGraph) (path : List String) (state : Search) : Prop where
  onPath : ∀ package ∈ path, package ∈ state.visited
  ends : ∀ package ∈ state.visited, package ∈ path ∨ graph.Ends package

/-- A path that can be searched: its packages are different, and there are enough turns
for all packages that are not on it. -/
structure Path (graph : ImportGraph) (path : List String) (bound : Nat) : Prop where
  distinct : path.Nodup
  known : ∀ package ∈ path, package ∈ graph.packages
  enough : graph.packages.length < path.length + bound

theorem Path.extend (fits : graph.Path path (bound + 1)) (new : next ∉ path)
    (known : next ∈ graph.packages) :
    graph.Path (path ++ [next]) bound where
  distinct := by
    rw [List.nodup_append]
    refine ⟨fits.distinct, List.nodup_singleton next, ?_⟩
    rintro package member other isNext rfl
    rw [List.mem_singleton] at isNext
    exact new (isNext ▸ member)
  known := List.forall_mem_append.mpr ⟨fits.known, List.forall_mem_singleton.mpr known⟩
  enough := by
    have := fits.enough
    rw [List.length_append, List.length_singleton]
    omega

/-- A search from the end of a path leaves the path settled, and nothing unvisited that
was visited. -/
structure Leaves (graph : ImportGraph) (path : List String) (before after : Search) : Prop where
  settled : graph.Settled path after
  visited : ∀ package ∈ before.visited, package ∈ after.visited

/-- Following packages from the end of a path finds that they all end. -/
theorem follow_leaves (searching : ∀ path package state, graph.Path (path ++ [package]) bound →
      graph.Settled path state → package ∉ state.visited →
      (graph.search bound path package state).cycles = [] →
      graph.Leaves path state (graph.search bound path package state) ∧ graph.Ends package)
    {imports : List String} (fits : graph.Path path (bound + 1))
    (known : ∀ next ∈ imports, next ∈ graph.packages) (settled : graph.Settled path state)
    (silent : (imports.foldl (graph.follow bound path) state).cycles = []) :
    graph.Leaves path state (imports.foldl (graph.follow bound path) state) ∧
      ∀ next ∈ imports, graph.Ends next := by
  induction imports generalizing state with
  | nil => exact ⟨⟨settled, fun _ visited => visited⟩, by simp⟩
  | cons next later ih =>
    rw [List.forall_mem_cons] at known
    rw [List.foldl_cons] at silent ⊢
    have quiet : (graph.follow bound path state next).cycles = [] := by
      have grows := graph.follow_cycles_prefix (graph.search_cycles_prefix bound) path later
        (graph.follow bound path state next)
      rw [silent] at grows
      exact List.prefix_nil.mp grows
    have one : graph.Leaves path state (graph.follow bound path state next) ∧ graph.Ends next := by
      rcases graph.follow_cases bound path state next with
        ⟨unvisited, searched⟩ | ⟨_, _, found⟩ | ⟨visited, outside, kept⟩
      · rw [searched] at quiet ⊢
        have new : next ∉ path := fun onPath => unvisited (settled.onPath next onPath)
        exact searching path next state (fits.extend new known.1) settled unvisited quiet
      · rw [found] at quiet
        simp at quiet
      · rw [kept]
        exact ⟨⟨settled, fun _ visited => visited⟩,
          (settled.ends next visited).resolve_left outside⟩
    obtain ⟨others, ends⟩ := ih known.2 one.1.settled silent
    refine ⟨⟨others.settled, fun package visited => ?_⟩, List.forall_mem_cons.mpr ⟨one.2, ends⟩⟩
    exact others.visited package (one.1.visited package visited)

/-- A search that reports nothing ends the package it starts from. -/
theorem search_leaves (formed : graph.WellFormed) (bound : Nat) (path : List String)
    (package : String) (state : Search) (fits : graph.Path (path ++ [package]) bound)
    (settled : graph.Settled path state) (unvisited : package ∉ state.visited)
    (silent : (graph.search bound path package state).cycles = []) :
    graph.Leaves path state (graph.search bound path package state) ∧ graph.Ends package := by
  induction bound generalizing path package state with
  | zero =>
    -- The path would hold more packages than there are.
    have fewer : (path ++ [package]).length ≤ graph.packages.length :=
      (List.subperm_of_subset fits.distinct fits.known).length_le
    have := fits.enough
    omega
  | succ bound ih =>
    rw [search_succ] at silent ⊢
    have entered : graph.Settled (path ++ [package])
        { state with visited := package :: state.visited } := by
      refine ⟨List.forall_mem_append.mpr ⟨?_, by simp⟩, List.forall_mem_cons.mpr ⟨by simp, ?_⟩⟩
      · exact fun other onPath => List.mem_cons_of_mem _ (settled.onPath other onPath)
      · exact fun other visited => (settled.ends other visited).imp_left
          (List.mem_append_left [package])
    obtain ⟨leaves, ends⟩ := follow_leaves ih fits (formed.closed package) entered silent
    have packageEnds : graph.Ends package := .intro package ends
    refine ⟨⟨⟨?_, ?_⟩, ?_⟩, packageEnds⟩
    · exact fun other onPath => leaves.settled.onPath other (List.mem_append_left _ onPath)
    · intro other visited
      rcases leaves.settled.ends other visited with onPath | ends
      · rcases List.mem_append.mp onPath with onPath | isPackage
        · exact .inl onPath
        · rw [List.mem_singleton] at isPackage
          exact .inr (isPackage ▸ packageEnds)
      · exact .inr ends
    · exact fun other visited => leaves.visited other (List.mem_cons_of_mem _ visited)

theorem ends_of_cycles_eq_nil (formed : graph.WellFormed) (silent : graph.cycles = [])
    (known : package ∈ graph.packages) : graph.Ends package := by
  have fromStart : graph.cycles =
      (graph.packages.foldl (graph.follow (graph.imports.size + 1) []) ⟨[], []⟩).cycles := by
    unfold cycles
    congr 2
    funext state next
    unfold follow
    by_cases visited : next ∈ state.visited <;> simp [visited]
  rw [fromStart] at silent
  have size : graph.packages.length = graph.imports.size := List.length_map _
  have fits : graph.Path [] (graph.imports.size + 1 + 1) :=
    ⟨List.nodup_nil, by simp, by omega⟩
  exact (follow_leaves (search_leaves formed _) fits (fun _ known => known) ⟨by simp, by simp⟩
    silent).2 package known

theorem cycles_ne_nil_iff (formed : graph.WellFormed) : graph.cycles ≠ [] ↔
    ∃ package, Relation.TransGen (fun importer imported => imported ∈ graph.importsOf importer)
      package package := by
  constructor
  · intro reported
    obtain ⟨cycle, member⟩ := List.exists_mem_of_ne_nil _ reported
    obtain ⟨package, later, _, last, chain⟩ := cycles_close cycle member
    refine ⟨package, ?_⟩
    cases later with
    | nil => cases last
    | cons next rest =>
      rw [List.isChain_cons_cons] at chain
      have back : (next :: rest).getLast (List.cons_ne_nil _ _) = package := by
        rwa [List.getLast?_eq_some_getLast (List.cons_ne_nil _ _), Option.some.injEq] at last
      exact .head' chain.1 (back ▸ List.relationReflTransGen_of_exists_isChain_cons rest chain.2 rfl)
  · rintro ⟨package, returns⟩ silent
    have known : package ∈ graph.packages := by
      obtain ⟨next, isImport, _⟩ := Relation.TransGen.head'_iff.mp returns
      unfold importsOf at isImport
      cases found : graph.imports.get? package with
      | none => simp [found] at isImport
      | some imported => exact OrderedMap.mem_keys_iff.mpr ⟨imported, found⟩
    exact (ends_of_cycles_eq_nil formed silent known).not_returns returns

end Silence

end ImportGraph
end Unclosed
