/-!
Character classes as run lengths of code points.
-/

namespace Unclosed.Text

/-- So many code points are outside of the class, then so many inside, and so on. -/
abbrev CodeRuns := List Nat

namespace CodeRuns

def coversFrom (inside : Bool) : CodeRuns → Nat → Bool
  | [], _ => false
  | run :: later, code => if code < run then inside else coversFrom (!inside) later (code - run)

def covers (runs : CodeRuns) (code : Nat) : Bool := runs.coversFrom false code

end CodeRuns

end Unclosed.Text
