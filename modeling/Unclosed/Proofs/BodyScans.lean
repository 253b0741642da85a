import Unclosed.Proofs.MoreDisposers

/-!
What the scan of a body reports.  A result that is dropped while nothing has been
bound for tracking ends the scan.  Otherwise every statement contributes its own
findings, and each value that a statement binds is a leak unless a later statement
resolves it.
-/

namespace Unclosed
namespace Scan

variable (scan : Scan)

/-! ### What a body amounts to -/

variable {scan} {stmt : Stmt} {later : List Stmt}

end Scan

namespace Program

/-- A package whose `blank` binds a value to the blank identifier, and whose `twice` drops one
behind a value that it closes. -/
def blankTree : SourceTree :=
  .addFile .empty "a" "a.go" "package a
type C interface\x7bClose()\x7d
func new()C
func blank()\x7b_=new()\x7d
func twice()\x7bc:=new();new();c.Close()\x7d"

/-- Both have a finding and count as verified. -/
theorem blank_target_verified :
    ((loadProgram handoverSettings blankTree []).toOption.map fun program =>
      program.packages.flatMap fun package =>
        (program.scanFunctions {} .empty package).map fun (func, verified, findings) =>
          (func.name.name, verified, findings.map Finding.code)) =
      some [("new", true, []), ("blank", true, ["C1004"]), ("twice", true, ["C1001"])] := by
  decide +kernel

end Program
end Unclosed
