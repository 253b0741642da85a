import Unclosed.Source.File
import Unclosed.Syntax.Span

/-!
The registry of all source files of one run.
-/

namespace Unclosed

/-- A range of a registered file. -/
structure Site where
  file : FileId
  span : Span
deriving DecidableEq, Repr

/-- Registered files; a file's number is its place. -/
structure SourceMap where
  files : Array SourceFile

namespace SourceMap

def empty : SourceMap := ⟨#[]⟩

def nextId (sources : SourceMap) : FileId := ⟨sources.files.size⟩

def add (sources : SourceMap) (name content : String) : SourceMap :=
  ⟨sources.files.push ⟨name, content⟩⟩

def file? (sources : SourceMap) (file : FileId) : Option SourceFile := sources.files[file.index]?

def fileName? (sources : SourceMap) (file : FileId) : Option String :=
  (sources.file? file).map SourceFile.name

def lineColumn? (sources : SourceMap) (file : FileId) (offset : Nat) : Option (Nat × Nat) :=
  (sources.file? file).map fun source => source.lineColumn offset

/-- Resolve a byte range.  A range that ends before it starts is empty. -/
def region? (sources : SourceMap) (file : FileId) (start stop : Nat) : Option Region :=
  (sources.file? file).map fun source =>
    ⟨source.position start, source.position (max stop start), file⟩

/-- The region of a site, or the first column when its file is unknown. -/
def region (sources : SourceMap) (site : Site) : Region :=
  (sources.region? site.file site.span.start site.span.stop).getD
    (Region.point ⟨1, 1, site.span.start⟩ site.file)

end SourceMap

end Unclosed
