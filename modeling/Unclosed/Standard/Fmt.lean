import Unclosed.Standard.Package

/-!
The package `fmt`: formatted printing and scanning.
-/

namespace Unclosed

def StandardPackage.fmt : StandardPackage := ⟨"fmt", "fmt.go", ofLines
  ["package fmt",
   "",
   "import \"io\"",
   "",
   "type Stringer interface \x7b",
   "\tString() string",
   "\x7d",
   "",
   "func Print(a ...any) (n int, err error)",
   "",
   "func Println(a ...any) (n int, err error)",
   "",
   "func Printf(format string, a ...any) (n int, err error)",
   "",
   "func Sprint(a ...any) string",
   "",
   "func Sprintln(a ...any) string",
   "",
   "func Sprintf(format string, a ...any) string",
   "",
   "func Errorf(format string, a ...any) error",
   "",
   "func Fprint(w io.Writer, a ...any) (n int, err error)",
   "",
   "func Fprintln(w io.Writer, a ...any) (n int, err error)",
   "",
   "func Fprintf(w io.Writer, format string, a ...any) (n int, err error)",
   "",
   "func Sscanf(str string, format string, a ...any) (n int, err error)"]⟩

end Unclosed
