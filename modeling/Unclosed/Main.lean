import Unclosed.Command.Execute

/-!
The program on the files of the system.
-/

namespace Unclosed

def entryKind? : IO.FS.FileType → Option EntryKind
  | .file => some .file
  | .dir => some .directory
  | _ => none

def attempt? {α : Type} (action : IO α) : IO (Option α) := do
  try
    return some (← action)
  catch _ =>
    return none

def systemStorage : Storage IO where
  kind? path := do
    let found ← attempt? do
      let path ← IO.FS.realPath path
      return entryKind? (← path.metadata).type
    return found.join
  entries? path := attempt? do
    let path ← IO.FS.realPath path
    let mut entries := []
    for entry in ← path.readDir do
      if let some kind := entryKind? (← entry.path.symlinkMetadata).type then
        entries := (entry.fileName, kind) :: entries
    return entries
  read? path := attempt? do return (← IO.FS.readBinFile path).toList
  write path content := do
    return (← attempt? (IO.FS.writeBinFile path ⟨content.toArray⟩)).isSome

end Unclosed

def main (words : List String) : IO UInt32 := do
  let outcome ← Unclosed.runCommandLine Unclosed.systemStorage words
  IO.print outcome.output
  IO.eprint outcome.errors
  return outcome.code.toUInt32
