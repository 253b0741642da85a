import Unclosed.Standard.Package

/-!
The package `io`: streams and their closing.
-/

namespace Unclosed

def StandardPackage.io : StandardPackage := ⟨"io", "io.go", ofLines
  ["package io",
   "",
   "type Reader interface \x7b",
   "\tRead(p []byte) (n int, err error)",
   "\x7d",
   "",
   "type Writer interface \x7b",
   "\tWrite(p []byte) (n int, err error)",
   "\x7d",
   "",
   "type Closer interface \x7b",
   "\tClose() error",
   "\x7d",
   "",
   "type Seeker interface \x7b",
   "\tSeek(offset int64, whence int) (int64, error)",
   "\x7d",
   "",
   "type ReadWriter interface \x7b",
   "\tReader",
   "\tWriter",
   "\x7d",
   "",
   "type ReadCloser interface \x7b",
   "\tReader",
   "\tCloser",
   "\x7d",
   "",
   "type WriteCloser interface \x7b",
   "\tWriter",
   "\tCloser",
   "\x7d",
   "",
   "type ReadWriteCloser interface \x7b",
   "\tReader",
   "\tWriter",
   "\tCloser",
   "\x7d",
   "",
   "type ReadSeekCloser interface \x7b",
   "\tReader",
   "\tSeeker",
   "\tCloser",
   "\x7d",
   "",
   "const (",
   "\tSeekStart   = 0",
   "\tSeekCurrent = 1",
   "\tSeekEnd     = 2",
   ")",
   "",
   "var EOF error",
   "",
   "var ErrUnexpectedEOF error",
   "",
   "var Discard Writer",
   "",
   "func NopCloser(r Reader) ReadCloser",
   "",
   "func ReadAll(r Reader) ([]byte, error)",
   "",
   "func Copy(dst Writer, src Reader) (written int64, err error)",
   "",
   "func CopyN(dst Writer, src Reader, n int64) (written int64, err error)",
   "",
   "func WriteString(w Writer, s string) (n int, err error)",
   "",
   "func LimitReader(r Reader, n int64) Reader",
   "",
   "func MultiReader(readers ...Reader) Reader",
   "",
   "func TeeReader(r Reader, w Writer) Reader",
   "",
   "func Pipe() (*PipeReader, *PipeWriter)",
   "",
   "type PipeReader struct \x7b",
   "\tpipe int",
   "\x7d",
   "",
   "func (r *PipeReader) Read(data []byte) (n int, err error)",
   "",
   "func (r *PipeReader) Close() error",
   "",
   "type PipeWriter struct \x7b",
   "\tpipe int",
   "\x7d",
   "",
   "func (w *PipeWriter) Write(data []byte) (n int, err error)",
   "",
   "func (w *PipeWriter) Close() error"]⟩

end Unclosed
