import Unclosed.Standard.Package

/-!
The package `bytes`: byte slices and buffers.
-/

namespace Unclosed

def StandardPackage.bytes : StandardPackage := ⟨"bytes", "bytes.go", ofLines
  ["package bytes",
   "",
   "type Buffer struct \x7b",
   "\tbuf []byte",
   "\x7d",
   "",
   "func NewBuffer(buf []byte) *Buffer",
   "",
   "func NewBufferString(s string) *Buffer",
   "",
   "func (b *Buffer) Read(p []byte) (n int, err error)",
   "",
   "func (b *Buffer) Write(p []byte) (n int, err error)",
   "",
   "func (b *Buffer) WriteString(s string) (n int, err error)",
   "",
   "func (b *Buffer) WriteByte(c byte) error",
   "",
   "func (b *Buffer) String() string",
   "",
   "func (b *Buffer) Bytes() []byte",
   "",
   "func (b *Buffer) Len() int",
   "",
   "func (b *Buffer) Reset()",
   "",
   "type Reader struct \x7b",
   "\ts []byte",
   "\x7d",
   "",
   "func NewReader(b []byte) *Reader",
   "",
   "func (r *Reader) Read(b []byte) (n int, err error)",
   "",
   "func (r *Reader) Len() int",
   "",
   "func Equal(a, b []byte) bool",
   "",
   "func Contains(b, subslice []byte) bool",
   "",
   "func TrimSpace(s []byte) []byte"]⟩

end Unclosed
