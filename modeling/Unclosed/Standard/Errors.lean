import Unclosed.Standard.Package

/-!
The package `errors`: error values.
-/

namespace Unclosed

def StandardPackage.errors : StandardPackage := ⟨"errors", "errors.go", ofLines
  ["package errors",
   "",
   "func New(text string) error",
   "",
   "func Is(err, target error) bool",
   "",
   "func As(err error, target any) bool",
   "",
   "func Unwrap(err error) error",
   "",
   "func Join(errs ...error) error"]⟩

end Unclosed
