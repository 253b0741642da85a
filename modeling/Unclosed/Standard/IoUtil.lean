import Unclosed.Standard.Package

/-!
The package `io/ioutil`: whole reads and the reader with nothing to close.
-/

namespace Unclosed

def StandardPackage.ioUtil : StandardPackage := ⟨"io/ioutil", "ioutil.go", ofLines
  ["package ioutil",
   "",
   "import \"io\"",
   "",
   "var Discard io.Writer",
   "",
   "func NopCloser(r io.Reader) io.ReadCloser",
   "",
   "func ReadAll(r io.Reader) ([]byte, error)",
   "",
   "func ReadFile(filename string) ([]byte, error)",
   "",
   "func WriteFile(filename string, data []byte, perm uint32) error",
   "",
   "func TempDir(dir, pattern string) (name string, err error)"]⟩

end Unclosed
