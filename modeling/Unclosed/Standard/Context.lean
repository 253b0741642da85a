import Unclosed.Standard.Package

/-!
The package `context`: cancellation.
-/

namespace Unclosed

def StandardPackage.context : StandardPackage := ⟨"context", "context.go", ofLines
  ["package context",
   "",
   "import \"time\"",
   "",
   "type Context interface \x7b",
   "\tDeadline() (deadline time.Time, ok bool)",
   "\tDone() <-chan struct\x7b\x7d",
   "\tErr() error",
   "\tValue(key any) any",
   "\x7d",
   "",
   "type CancelFunc func()",
   "",
   "var Canceled error",
   "",
   "var DeadlineExceeded error",
   "",
   "func Background() Context",
   "",
   "func TODO() Context",
   "",
   "func WithCancel(parent Context) (ctx Context, cancel CancelFunc)",
   "",
   "func WithTimeout(parent Context, timeout time.Duration) (Context, CancelFunc)",
   "",
   "func WithDeadline(parent Context, d time.Time) (Context, CancelFunc)",
   "",
   "func WithValue(parent Context, key, val any) Context"]⟩

end Unclosed
