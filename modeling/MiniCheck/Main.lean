import MiniCheck.CommandLine.Command

/-!
# The program

Runs the command on the files of the machine. The parser is a separate program and is not built in,
so a file that can be read is reported as one for which there is no parser.
-/

open MiniCheck.CommandLine

/-- Adds what stands at a path to the tree. -/
def look (files : FileTree) (path : String) : IO FileTree := do
  try
    let content ← IO.FS.readBinFile path
    return files.withFile path content.toList
  catch
    | .inappropriateType .. => return files.withDir path
    | _ => return files

/-- The paths that a run may have to do with. -/
def pathsOf (args : List String) : List String :=
  match Options.parse args with
  | .error _ => []
  | .ok o =>
      let dir := o.outDir.getD "."
      [o.input, dir] ++ ["tokens", "global_vars", "functions", "errors"].map (listingPath dir)

def save (place : Location) (content : List UInt8) : IO Unit := do
  IO.FS.createDirAll ("/" ++ "/".intercalate place.dropLast)
  IO.FS.writeBinFile ("/" ++ "/".intercalate place) ⟨content.toArray⟩

def main (args : List String) : IO UInt32 := do
  let home := (MiniCheck.Text.segments (← IO.currentDir).toString).filter (· != "")
  let files ← (pathsOf args).foldlM look (FileTree.empty home)
  let t := run files .unavailable args
  for (place, content) in FileTree.changedFiles files t.files do
    save place content
  IO.print t.stdout
  IO.eprint t.stderr
  match t.ending with
  | .exit code => return code.toUInt32
  | .usage code => return code.toUInt32
  | .failed f =>
      IO.eprintln f.message
      return 1
