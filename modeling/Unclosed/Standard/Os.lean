import Unclosed.Standard.Package

/-!
The package `os`: files and the process.
-/

namespace Unclosed

def StandardPackage.os : StandardPackage := ⟨"os", "os.go", ofLines
  ["package os",
   "",
   "type FileMode uint32",
   "",
   "type File struct \x7b",
   "\tname string",
   "\x7d",
   "",
   "func (f *File) Close() error",
   "",
   "func (f *File) Read(b []byte) (n int, err error)",
   "",
   "func (f *File) Write(b []byte) (n int, err error)",
   "",
   "func (f *File) WriteString(s string) (n int, err error)",
   "",
   "func (f *File) Seek(offset int64, whence int) (ret int64, err error)",
   "",
   "func (f *File) Name() string",
   "",
   "func (f *File) Sync() error",
   "",
   "const (",
   "\tO_RDONLY = 0",
   "\tO_WRONLY = 1",
   "\tO_RDWR   = 2",
   "\tO_APPEND = 1024",
   "\tO_CREATE = 64",
   "\tO_TRUNC  = 512",
   ")",
   "",
   "var (",
   "\tStdin  *File",
   "\tStdout *File",
   "\tStderr *File",
   ")",
   "",
   "var Args []string",
   "",
   "var ErrNotExist error",
   "",
   "func Open(name string) (*File, error)",
   "",
   "func Create(name string) (*File, error)",
   "",
   "func OpenFile(name string, flag int, perm FileMode) (*File, error)",
   "",
   "func CreateTemp(dir, pattern string) (*File, error)",
   "",
   "func ReadFile(name string) ([]byte, error)",
   "",
   "func WriteFile(name string, data []byte, perm FileMode) error",
   "",
   "func Remove(name string) error",
   "",
   "func RemoveAll(path string) error",
   "",
   "func MkdirAll(path string, perm FileMode) error",
   "",
   "func Getenv(key string) string",
   "",
   "func Exit(code int)"]⟩

end Unclosed
