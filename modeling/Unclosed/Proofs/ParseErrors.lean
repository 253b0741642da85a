import Unclosed.Proofs.OutlinedStatements

/-!
Errors of the parser are well placed.  Whatever is rebuilt, merged or named on
the way out, the error that is reported lies in the text, the constructs it
names start before it, and inner constructs start behind outer ones.
-/

namespace Unclosed.Grammar

open Grammar.Parser

/-- What the parser of whole files replies, from the start of the text. -/
theorem sourceFile_settled (name text : String) :
    Settled (Cursor.ofText text) (closes 1) (fun _ => 1) (fun _ => closes 1)
      (sourceFile (Rules.forText (Cursor.ofText text)) name (Cursor.ofText text)) := by
  have follow : (Rules.forText (Cursor.ofText text)).Follow []
      ((Cursor.ofText text).rest.length + 2) (Rules.forText (Cursor.ofText text)) :=
    Rules.follow_ofDepth newLine_nil _ (Nat.le_refl _) (Nat.le_refl _)
  exact ((sourceFile_outlined follow name 0).tracks (Cursor.ofText text) (by omega)).settled

theorem fault_of_parseFile_error {name text : String} {error : SyntaxError}
    (failed : parseFile name text = .error error) :
    ∃ fault : Fault, error = .ofFault name fault ∧ fault.Within (Cursor.ofText text) := by
  have settled := sourceFile_settled name text
  unfold parseFile at failed
  dsimp only at failed
  split at failed
  · cases failed
  · next fault reply =>
    cases failed
    rw [reply] at settled
    exact ⟨fault, rfl, settled⟩
  · next fault reply =>
    cases failed
    rw [reply] at settled
    exact ⟨fault, rfl, settled⟩

/-- The error stands at a character of the text or at its end.  The constructs that were
being read start no later, an inner one no earlier than the one around it. -/
theorem parseFile_error_placed {name text : String} {error : SyntaxError}
    (failed : parseFile name text = .error error) :
    error.offset ≤ text.utf8ByteSize ∧ String.Pos.Raw.IsValid text ⟨error.offset⟩
      ∧ (∀ construct ∈ error.contexts, construct.1 ≤ error.offset)
      ∧ error.contexts.Pairwise fun inner outer => outer.1 ≤ inner.1 := by
  obtain ⟨fault, rfl, within⟩ := fault_of_parseFile_error failed
  have inText : fault.position.In text := within.reaches
  exact ⟨inText.offset_le, inText.isValid, fun construct named => (within.inside construct named).2,
    within.ordered⟩

theorem call_error_placed :
    ∃ error, parseFile "a.go" "package p\nfunc f() \x7b\n\tx := g(é, \x7d" = .error error
      ∧ error.offset = 33
      ∧ error.contexts = [(29, "call arguments"), (26, "assignment"), (19, "function body")]
      ∧ String.Pos.Raw.IsValid "package p\nfunc f() \x7b\n\tx := g(é, \x7d" ⟨error.offset⟩
      ∧ error.contexts.Pairwise fun inner outer => outer.1 ≤ inner.1 := by
  have read : (((parseFile "a.go" "package p\nfunc f() \x7b\n\tx := g(é, \x7d").map fun _ =>
      none).tryCatch fun error => .ok (some (error.offset, error.contexts))).toOption =
        some (some (33, [(29, "call arguments"), (26, "assignment"), (19, "function body")])) := by
    decide +kernel
  cases parsed : parseFile "a.go" "package p\nfunc f() \x7b\n\tx := g(é, \x7d" with
  | ok file =>
    rw [parsed] at read
    cases read
  | error error =>
    rw [parsed] at read
    have same := Option.some.inj (Option.some.inj read)
    obtain ⟨_, valid, _, ordered⟩ := parseFile_error_placed parsed
    exact ⟨error, rfl, congrArg Prod.fst same, congrArg Prod.snd same, valid, ordered⟩

end Unclosed.Grammar
