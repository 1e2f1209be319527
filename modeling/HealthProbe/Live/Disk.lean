import HealthProbe.Files.Tree

/-! # File trees on disk

Reads what stands at some paths into a file tree, and brings what has changed in a tree back to the disk.
-/
namespace HealthProbe.Live

def entryAt (path : String) : IO (Option FileEntry) := do
  try
    let bytes ← IO.FS.readBinFile path
    match String.fromUTF8? bytes with
    | some text => pure (some (.text text))
    | none => pure (some (.binary bytes.toList))
  catch
    | .inappropriateType .. => pure (some .folder)
    | _ => pure none

/-- The keys of the places that a path leads through, the last one being its own. -/
def placesOf (path : String) : List String :=
  let (absolute, steps) := Path.steps path
  (List.range steps.length).map fun n => Path.key absolute (steps.take (n + 1))

def readTree (paths : List String) : IO FileTree := do
  let mut entries : Table FileEntry := Table.empty
  for place in (paths.flatMap placesOf).eraseDups do
    if let some e ← entryAt place then
      entries := entries.insert place e
  pure ⟨entries⟩

/-- Writes the texts that are new in a tree, each of them at once. -/
def writeChanges (old new : FileTree) : IO Unit := do
  for (path, e) in new.entries.entries do
    if old.entries.find? path ≠ some e then
      match e with
      | .text s =>
        let draft := path ++ ".tmp"
        IO.FS.writeFile draft s
        IO.FS.rename draft path
      | .folder => IO.FS.createDirAll path
      | .binary _ => pure ()

end HealthProbe.Live
