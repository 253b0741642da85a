import Unclosed.Standard.Package

/-!
The package `bufio`: buffered streams.
-/

namespace Unclosed

def StandardPackage.bufIo : StandardPackage := ⟨"bufio", "bufio.go", ofLines
  ["package bufio",
   "",
   "import \"io\"",
   "",
   "type Reader struct \x7b",
   "\trd io.Reader",
   "\x7d",
   "",
   "func NewReader(rd io.Reader) *Reader",
   "",
   "func NewReaderSize(rd io.Reader, size int) *Reader",
   "",
   "func (b *Reader) Read(p []byte) (n int, err error)",
   "",
   "func (b *Reader) ReadString(delim byte) (string, error)",
   "",
   "func (b *Reader) ReadBytes(delim byte) ([]byte, error)",
   "",
   "type Writer struct \x7b",
   "\twr io.Writer",
   "\x7d",
   "",
   "func NewWriter(w io.Writer) *Writer",
   "",
   "func (b *Writer) Write(p []byte) (nn int, err error)",
   "",
   "func (b *Writer) WriteString(s string) (int, error)",
   "",
   "func (b *Writer) Flush() error",
   "",
   "type Scanner struct \x7b",
   "\tr io.Reader",
   "\x7d",
   "",
   "func NewScanner(r io.Reader) *Scanner",
   "",
   "func (s *Scanner) Scan() bool",
   "",
   "func (s *Scanner) Text() string",
   "",
   "func (s *Scanner) Bytes() []byte",
   "",
   "func (s *Scanner) Err() error"]⟩

end Unclosed
