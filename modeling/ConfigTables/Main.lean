import ConfigTables.CommandLine.Command
import Std.Time.DateTime.Timestamp

/-!
    The program. What a command line comes to is computed from the files it reads; this module reads
    them, writes what has changed, and tells the caller. -/

namespace ConfigTables.CommandLine

/-- The files that are known, and the one at a path. What is there but cannot be read is known as a
directory. -/
def look (files : FileTree) (path : String) : IO FileTree := do
  try
    return files.add path (.file (← IO.FS.readBinFile path))
  catch
    | .noFileOrDirectory .. => return files
    | _ => return files.add path (.directory [])

/-- The files that a command line reads. Those known after one round tell which to read in the
next: settings, then the schema, then rows. -/
def gather (args : List String) : Nat → FileTree → IO FileTree
  | 0, files => return files
  | rounds + 1, files => do gather args rounds (← (inputs args files).foldlM look files)

/-- Writes the files that have changed. -/
def save (before after : FileTree) : IO Unit :=
  after.root.files.forM fun (place, content) => do
    let known := match before.root.get? place with
      | some (.file known) => known == content
      | _ => false
    unless known do
      let path := "/" ++ "/".intercalate place
      IO.FS.createDirAll ("/" ++ "/".intercalate place.dropLast)
      IO.FS.writeBinFile (path ++ ".tmp") content
      IO.FS.rename (path ++ ".tmp") path

/-- The stamp of a run that starts now. -/
def stampNow : IO RunStamp := do
  let nanos := (← Std.Time.Timestamp.now).toNanosecondsSinceUnixEpoch.val
  let id ← IO.rand 0 (1 <<< 122 - 1)
  return ⟨RunStamp.randomId id, nanos / 1000000000, (nanos % 1000000000).toNat, 0, none, none⟩

/-- Carries out a command line on the files of this machine. -/
def runHere (args : List String) : IO Reply := do
  let stamp ← stampNow
  let start ← IO.monoMsNow
  let here := (Path.segments (← IO.currentDir).toString).filter (· ≠ [])
  let before ← gather args 3 (.empty (here.map String.ofList))
  let (reply, after) := run { stamp with milliseconds := (← IO.monoMsNow) - start } args before
  save before after
  return reply

end ConfigTables.CommandLine

open ConfigTables.CommandLine in
/-- Carries out a command line and tells the caller what it came to. -/
def main (args : List String) : IO UInt32 := do
  let reply ← runHere args
  match reply with
  | .done text => IO.print text
  | .failed e => IO.eprintln ("Error: " ++ e.message)
  | .misused => IO.eprint programHelp
  return reply.exitCode.toUInt32
