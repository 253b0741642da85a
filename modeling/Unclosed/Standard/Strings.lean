import Unclosed.Standard.Package

/-!
The package `strings`: texts.
-/

namespace Unclosed

def StandardPackage.strings : StandardPackage := ⟨"strings", "strings.go", ofLines
  ["package strings",
   "",
   "type Reader struct \x7b",
   "\ts string",
   "\x7d",
   "",
   "func NewReader(s string) *Reader",
   "",
   "func (r *Reader) Read(b []byte) (n int, err error)",
   "",
   "func (r *Reader) Len() int",
   "",
   "type Builder struct \x7b",
   "\tbuf []byte",
   "\x7d",
   "",
   "func (b *Builder) WriteString(s string) (int, error)",
   "",
   "func (b *Builder) WriteByte(c byte) error",
   "",
   "func (b *Builder) String() string",
   "",
   "func (b *Builder) Len() int",
   "",
   "func Contains(s, substr string) bool",
   "",
   "func HasPrefix(s, prefix string) bool",
   "",
   "func HasSuffix(s, suffix string) bool",
   "",
   "func Index(s, substr string) int",
   "",
   "func Split(s, sep string) []string",
   "",
   "func Fields(s string) []string",
   "",
   "func Join(elems []string, sep string) string",
   "",
   "func Repeat(s string, count int) string",
   "",
   "func Replace(s, old, repl string, n int) string",
   "",
   "func ReplaceAll(s, old, repl string) string",
   "",
   "func TrimSpace(s string) string",
   "",
   "func TrimPrefix(s, prefix string) string",
   "",
   "func TrimSuffix(s, suffix string) string",
   "",
   "func ToLower(s string) string",
   "",
   "func ToUpper(s string) string",
   "",
   "func EqualFold(s, t string) bool"]⟩

end Unclosed
