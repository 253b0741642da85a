import Unclosed.Standard.Package

/-!
The package `log`: logging.
-/

namespace Unclosed

def StandardPackage.log : StandardPackage := ⟨"log", "log.go", ofLines
  ["package log",
   "",
   "import \"io\"",
   "",
   "type Logger struct \x7b",
   "\tprefix string",
   "\x7d",
   "",
   "func New(out io.Writer, prefix string, flag int) *Logger",
   "",
   "func (l *Logger) Print(v ...any)",
   "",
   "func (l *Logger) Printf(format string, v ...any)",
   "",
   "func (l *Logger) Println(v ...any)",
   "",
   "func Print(v ...any)",
   "",
   "func Printf(format string, v ...any)",
   "",
   "func Println(v ...any)",
   "",
   "func Fatal(v ...any)",
   "",
   "func Fatalf(format string, v ...any)",
   "",
   "func Fatalln(v ...any)",
   "",
   "func Panicf(format string, v ...any)",
   "",
   "func SetOutput(w io.Writer)",
   "",
   "func SetFlags(flag int)"]⟩

end Unclosed
