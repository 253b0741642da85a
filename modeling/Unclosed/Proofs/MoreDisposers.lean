import Mathlib.Data.String.Basic
import Unclosed.Proofs.ScanFacts

/-!
What more disposer facts do to a check.  Findings are reported in a fixed order
that keeps ties, so the report of fewer findings runs through the report of all
of them.  Facts only resolve values: what drops out of a report are leaks.
-/

namespace Unclosed

namespace Finding

/-! ### The order of a report -/

theorem precedes_iff (first second : Finding) :
    first.precedes second = true ↔
      first.file < second.file ∨ first.file = second.file ∧
        (first.region.start.offset < second.region.start.offset ∨
          first.region.start.offset = second.region.start.offset ∧ first.code ≤ second.code) := by
  unfold precedes
  by_cases sameFile : first.file = second.file
  · by_cases sameOffset : first.region.start.offset = second.region.start.offset
    · simp [sameFile, sameOffset]
    · simp [sameFile, sameOffset]
  · simp [sameFile]

theorem precedes_trans (first second third : Finding) (before : first.precedes second = true)
    (after : second.precedes third = true) : first.precedes third = true := by
  rw [precedes_iff] at before after ⊢
  rcases before with file | ⟨sameFile, offset | ⟨sameOffset, code⟩⟩
  · rcases after with next | ⟨sameNext, _⟩
    · exact .inl (lt_trans file next)
    · exact .inl (sameNext ▸ file)
  · rw [sameFile]
    refine after.imp_right fun ⟨sameNext, rest⟩ => ⟨sameNext, .inl ?_⟩
    rcases rest with next | ⟨sameOffset, _⟩
    · exact Nat.lt_trans offset next
    · exact sameOffset ▸ offset
  · rw [sameFile, sameOffset]
    refine after.imp_right fun ⟨sameNext, rest⟩ => ⟨sameNext, rest.imp_right ?_⟩
    exact fun ⟨sameOffset, next⟩ => ⟨sameOffset, le_trans code next⟩

theorem precedes_total (first second : Finding) :
    (first.precedes second || second.precedes first) = true := by
  rw [Bool.or_eq_true, precedes_iff, precedes_iff]
  rcases lt_trichotomy first.file second.file with before | sameFile | after
  · exact .inl (.inl before)
  · rcases lt_trichotomy first.region.start.offset second.region.start.offset with
      before | sameOffset | after
    · exact .inl (.inr ⟨sameFile, .inl before⟩)
    · rcases le_total first.code second.code with code | code
      · exact .inl (.inr ⟨sameFile, .inr ⟨sameOffset, code⟩⟩)
      · exact .inr (.inr ⟨sameFile.symm, .inr ⟨sameOffset.symm, code⟩⟩)
    · exact .inr (.inr ⟨sameFile.symm, .inl after⟩)
  · exact .inr (.inl after)

/-- Where a finding is placed in the report of the findings that follow it. -/
theorem sort_cons (finding : Finding) (later : List Finding) :
    ∃ before after, sort (finding :: later) = before ++ finding :: after ∧
      sort later = before ++ after ∧ (∀ other ∈ before, finding.precedes other = false) ∧
      ∀ other ∈ after, finding.precedes other = true := by
  obtain ⟨before, after, placed, rest, ahead⟩ :=
    List.mergeSort_cons precedes_trans precedes_total finding later
  refine ⟨before, after, placed, rest, fun other member => by simpa using ahead other member, ?_⟩
  have sorted := List.pairwise_mergeSort precedes_trans precedes_total (finding :: later)
  rw [placed] at sorted
  exact (List.pairwise_cons.mp (List.pairwise_append.mp sorted).2.1).1

theorem sort_sublist {few many : List Finding} (among : few.Sublist many) :
    (sort few).Sublist (sort many) := by
  induction among with
  | slnil => exact .refl _
  | @cons few many finding _ ih =>
    obtain ⟨before, after, placed, rest, _, _⟩ := sort_cons finding many
    rw [placed]
    rw [rest] at ih
    exact ih.trans ((List.sublist_cons_self finding after).append_left before)
  | @cons_cons few many finding _ ih =>
    obtain ⟨fewBefore, fewAfter, fewPlaced, fewRest, fewAhead, fewBehind⟩ :=
      sort_cons finding few
    obtain ⟨before, after, placed, rest, ahead, behind⟩ := sort_cons finding many
    rw [fewRest, rest] at ih
    rw [fewPlaced, placed]
    -- In both reports the finding stands between those that it precedes and the others.
    have front := ih.filter fun other => !finding.precedes other
    have back := ih.filter fun other => finding.precedes other
    simp only [List.filter_append] at front back
    rw [List.filter_eq_self.mpr (by simpa using fewAhead), List.filter_eq_nil_iff.mpr
      (by simpa using fewBehind), List.filter_eq_self.mpr (by simpa using ahead),
      List.filter_eq_nil_iff.mpr (by simpa using behind), List.append_nil,
      List.append_nil] at front
    rw [List.filter_eq_nil_iff.mpr (by simpa using fewAhead), List.filter_eq_self.mpr fewBehind,
      List.filter_eq_nil_iff.mpr (by simpa using ahead), List.filter_eq_self.mpr behind,
      List.nil_append, List.nil_append] at back
    exact front.append (back.cons_cons finding)

/-- Leaving findings out of a report gives the report without them. -/
theorem filter_sort (keep : Finding → Bool) (findings : List Finding) :
    (sort findings).filter keep = sort (findings.filter keep) := by
  symm
  have kept : (sort (findings.filter keep)).filter keep = sort (findings.filter keep) := by
    rw [List.filter_eq_self]
    intro finding member
    exact (List.mem_filter.mp (List.mem_mergeSort.mp member)).2
  have among := (sort_sublist (List.filter_sublist (p := keep) (l := findings))).filter keep
  rw [kept] at among
  apply among.eq_of_length
  unfold sort
  rw [List.length_mergeSort]
  exact ((List.mergeSort_perm findings precedes).filter keep).length_eq.symm

/-! ### Findings that are no leaks -/

def isOther (finding : Finding) : Bool := finding.code != "C1005"

end Finding

namespace Scan

variable (scan : Scan) (known : FuncKey → Bool)

theorem leaks_others (tracked : List Tracked) :
    (tracked.map scan.leak).filter Finding.isOther = [] := by
  rw [List.filter_eq_nil_iff]
  intro finding member
  obtain ⟨value, _, rfl⟩ := List.mem_map.mp member
  exact Bool.false_ne_true

/-- The other findings of a body depend on how many values are tracked, and not on
which of them are resolved. -/
theorem stmts_others (body : List Stmt) (few many : List Tracked)
    (sameLength : many.length = few.length) :
    ((scan.knowing known).stmts body many).2.filter Finding.isOther =
      (scan.stmts body few).2.filter Finding.isOther := by
  induction body generalizing few many with
  | nil => exact ((scan.knowing known).leaks_others _).trans (scan.leaks_others _).symm
  | cons stmt later ih =>
    have sameEmpty : many.isEmpty = few.isEmpty := by
      rw [Bool.eq_iff_iff, List.isEmpty_iff_length_eq_zero, List.isEmpty_iff_length_eq_zero,
        sameLength]
    have sameDropped : (scan.knowing known).dropped? stmt = scan.dropped? stmt := rfl
    have sameLater : (scan.knowing known).droppedLater stmt = scan.droppedLater stmt := rfl
    rw [stmts, stmts, sameEmpty, sameDropped, sameLater, boundBy_knowing]
    cases if few.isEmpty then scan.dropped? stmt else none with
    | some dropped => rfl
    | none =>
      simp only [List.filter_append]
      congr 1
      apply ih
      simp only [List.length_append, List.length_map, sameLength]

theorem function_others (func : FuncDecl) :
    ((scan.knowing known).function func).2.filter Finding.isOther =
      (scan.function func).2.filter Finding.isOther := by
  unfold function
  cases func.body with
  | none => rfl
  | some body => exact stmts_others scan known body.stmts [] [] rfl

end Scan

namespace Program

theorem checkPackage_others (program : Program) (settings : AnalysisSettings)
    (first second : FactStore) (package : Package) :
    (program.checkPackage settings second package).filter Finding.isOther =
      (program.checkPackage settings first package).filter Finding.isOther := by
  rw [checkPackage_eq, checkPackage_eq]
  simp only [List.filter_flatMap]
  exact List.flatMap_congr fun file _ => List.flatMap_congr fun func _ =>
    (program.scan settings first package file.id).function_others second.isDisposer func

/-- With more disposers known a check reports the same findings in the same order,
except that some values that were not closed are no longer reported. -/
theorem check_sublist_of_more_disposers (program : Program) (settings : AnalysisSettings)
    (few many : FactStore)
    (more : ∀ key, few.isDisposer key = true → many.isDisposer key = true) :
    (program.check settings many).Sublist (program.check settings few) ∧
      (program.check settings many).filter (fun finding => finding.code != "C1005") =
        (program.check settings few).filter fun finding => finding.code != "C1005" := by
  constructor
  · apply Finding.sort_sublist
    apply List.Sublist.flatMap_right
    intro package _
    exact program.checkPackage_sublist settings few many package fun key _ => more key
  · change List.filter Finding.isOther _ = List.filter Finding.isOther _
    unfold check
    rw [Finding.filter_sort, Finding.filter_sort, List.filter_flatMap, List.filter_flatMap]
    simp only [checkPackage_others program settings few many]

def handoverTree : SourceTree :=
  .addFile .empty "a" "a.go" "package a
type C interface\x7bClose()\x7d
func new()C
func end(c C)\x7b\x7d
func use()\x7bc:=new();end(c);new()\x7d"

def handoverSettings : Settings := { analysis := { disposableInterface := "a.C" } }

/-- Once `end` is known to close what it is given, the dropped value alone is
reported. -/
theorem handover_more_disposers :
    ∃ program, loadProgram handoverSettings handoverTree [] = .ok program ∧
      (program.check {} .empty).length = 2 ∧
      (program.check {} ⟨⟨[("a.end", true)]⟩, .empty⟩).map Finding.code = ["C1001"] ∧
      (program.check {} ⟨⟨[("a.end", true)]⟩, .empty⟩).Sublist (program.check {} .empty) := by
  have reported : ((loadProgram handoverSettings handoverTree []).toOption.map fun program =>
      (((program.requestedPackages.filter fun package => !package.isStandard).flatMap
          (program.checkPackage {} .empty)).length,
        (program.check {} ⟨⟨[("a.end", true)]⟩, .empty⟩).map Finding.code)) =
      some (2, ["C1001"]) := by decide +kernel
  cases loaded : loadProgram handoverSettings handoverTree [] with
  | error failure =>
    rw [loaded] at reported
    cases reported
  | ok program =>
    rw [loaded] at reported
    obtain ⟨unsorted, remaining⟩ := Prod.mk.inj (Option.some.inj reported)
    have unknown : ∀ key, FactStore.empty.isDisposer key = true →
        (⟨⟨[("a.end", true)]⟩, .empty⟩ : FactStore).isDisposer key = true :=
      fun key known => by cases known
    exact ⟨program, rfl, (List.length_mergeSort _).trans unsorted, remaining,
      (program.check_sublist_of_more_disposers {} _ _ unknown).1⟩

end Program
end Unclosed
