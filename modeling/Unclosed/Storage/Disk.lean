import Unclosed.Storage.Basic

/-!
Files that are held in memory below one top directory, beside the null device.
-/

namespace Unclosed

/-- Locations are the names on the way from the top. -/
structure Disk where
  directories : List (List String)
  files : List (List String × List UInt8)

namespace Disk

def empty : Disk := ⟨[], []⟩

def isDirectory (disk : Disk) (place : List String) : Bool :=
  place.isEmpty || disk.directories.contains place

def content? (disk : Disk) (place : List String) : Option (List UInt8) := disk.files.lookup place

def addDirectory (disk : Disk) (place : List String) : Disk :=
  let above := (List.range place.length).map fun count => place.take (count + 1)
  { disk with directories :=
      disk.directories ++ above.filter fun place => !disk.directories.contains place }

def addFile (disk : Disk) (place : List String) (content : List UInt8) : Disk :=
  let disk := disk.addDirectory place.dropLast
  { disk with files := (place, content) :: disk.files.filter fun file => file.1 != place }

def pathParts : List Char → List Char → List String
  | part, [] => [String.ofList part.reverse]
  | part, next :: rest =>
    if next == '/' then String.ofList part.reverse :: pathParts [] rest
    else pathParts (next :: part) rest

def maxNameSize : Nat := 255

def maxPathSize : Nat := 4095

/-- Follow the parts of a path.  Only directories can be passed through, and
nothing lies above the top. -/
def follow (disk : Disk) : List String → List String → Option (List String)
  | place, [] => some place
  | place, part :: parts =>
    if !disk.isDirectory place || maxNameSize < part.utf8ByteSize then none
    else if part == "" || part == "." then disk.follow place parts
    else if part == ".." then
      if place.isEmpty then none else disk.follow place.dropLast parts
    else disk.follow (place ++ [part]) parts

def locate? (disk : Disk) (path : String) : Option (List String) :=
  if maxPathSize < path.utf8ByteSize then none
  else
    match pathParts [] path.toList with
    | "" :: _ => none
    | parts => disk.follow [] parts

def kindAt? (disk : Disk) (place : List String) : Option EntryKind :=
  if disk.isDirectory place then some .directory
  else if (disk.content? place).isSome then some .file
  else none

def nameIn? (directory place : List String) : Option String :=
  if place.dropLast = directory then place.getLast? else none

def entriesAt (disk : Disk) (place : List String) : List (String × EntryKind) :=
  (disk.directories.filterMap (nameIn? place)).map (·, .directory)
    ++ (disk.files.filterMap fun file => nameIn? place file.1).map (·, .file)

def nullDevice : String := "/dev/null"

def storage : Storage (StateM Disk) where
  kind? path := do
    let disk ← get
    return (disk.locate? path).bind disk.kindAt?
  entries? path := do
    let disk ← get
    return (disk.locate? path).bind fun place =>
      if disk.isDirectory place then some (disk.entriesAt place) else none
  read? path := do
    let disk ← get
    if path = nullDevice then return some []
    return (disk.locate? path).bind disk.content?
  write path content := do
    let disk ← get
    if path = nullDevice then return true
    match disk.locate? path with
    | some place =>
      if disk.isDirectory place then return false
      set (disk.addFile place content)
      return true
    | none => return false

end Disk

end Unclosed
