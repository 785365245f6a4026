import ConfigTables.Calendar.Stamp
import ConfigTables.Files.Output

/-!
    The journal of runs. Each run that is to be recorded gets a directory of its own, named after its
    start and its identifier. A file in it says at the start what is going to be generated, a second
    one at the end what has been. A run that failed has no second file. -/

namespace ConfigTables

/-- What is known of a run from outside: its identifier, its start in seconds since the start of 1970
and the nanoseconds after these, how long it took, and the state of the working copy that it ran
in. The seconds since 1970 leave out leap seconds, so a start in one counts from the second before
it, and has more nanoseconds than a second. -/
structure RunStamp where
  id : String
  seconds : Int
  nanos : Nat
  milliseconds : Nat
  commit : Option String
  dirty : Option Bool
  deriving DecidableEq

/-- What is going to be generated. -/
structure RunPlan where
  schemaVersion : String
  schemaPath : String
  target : String
  codeTargets : List String
  deriving DecidableEq

/-- What has been generated by one target. -/
structure TargetSummary where
  name : String
  directory : String
  files : Nat
  bytes : Nat
  deriving DecidableEq

/-- What a run came to. -/
structure RunSummary where
  dryRun : Bool
  targets : List TargetSummary
  deriving DecidableEq

namespace RunStamp

/-- So many hexadecimal digits of a number, without those before them. -/
def hexDigits (count n : Nat) : String :=
  String.ofList (List.leftpad count '0' (Nat.toDigits 16 (n % Nat.pow 16 count)))

/-- An identifier from a random number of 122 bits: 32 hexadecimal digits, two of which say that the
others are random. -/
def randomId (n : Nat) : String :=
  "-".intercalate [hexDigits 8 n, hexDigits 4 (n >>> 32), "4" ++ hexDigits 3 (n >>> 48),
    hexDigits 4 (0x8000 + (n >>> 60) % 0x4000), hexDigits 12 (n >>> 74)]

/-- The second in which a run started; a leap second is the sixty-first of its minute. -/
def moment (s : RunStamp) : Moment :=
  let m := Moment.ofSeconds s.seconds
  { m with second := m.second + s.nanos / 1000000000 }

/-- The start of a run as a text. -/
def startText (s : RunStamp) : String := s.moment.text (s.nanos % 1000000000)

/-- The directory of a run in a journal. -/
def directory (s : RunStamp) (journal : String) : String :=
  Path.join journal (s.moment.stamp ++ "__run_" ++ s.id)

/-- The state of the working copy as a document. -/
def workingCopyJson (s : RunStamp) : Json :=
  .object [("commit", .optional s.commit), ("dirty", (s.dirty.map Json.bool).getD .null)]

/-- The document that is written at the start. -/
def planJson (s : RunStamp) (p : RunPlan) : Json :=
  .object [("run_id", .string s.id), ("started_at", .string s.startText),
    ("schema_version", .string p.schemaVersion), ("schema_path", .string p.schemaPath),
    ("target", .string p.target), ("code_targets", .strings p.codeTargets),
    ("git", s.workingCopyJson)]

/-- What has been generated by one target, as a document. -/
def targetJson (t : TargetSummary) : Json :=
  .object [("name", .string t.name), ("output_dir", .string t.directory), ("files", .nat t.files),
    ("bytes", .nat t.bytes)]

/-- The document that is written at the end. -/
def summaryJson (s : RunStamp) (summary : RunSummary) : Json :=
  .object [("run_id", .string s.id), ("status", .string "success"),
    ("duration_ms", .nat s.milliseconds), ("dry_run", .bool summary.dryRun),
    ("targets", .array (summary.targets.map targetJson))]

end RunStamp

/-- Why a run could not be recorded: its directory could not be made, or a file in it not be
written. -/
inductive JournalError where
  | io (path : String)
  | output (error : OutputError)
  deriving DecidableEq

namespace Journal

/-- Makes the directory of a run and writes what is going to be generated; the directory. -/
def start (s : RunStamp) (journal : String) (p : RunPlan) : FileWork JournalError String := do
  let directory := s.directory journal
  (changeDirectories directory (·.makeDirectories directory)).adapt fun _ => JournalError.io directory
  (writeJson (Path.join directory "config.json") (s.planJson p)).adapt .output
  return directory

/-- Writes what has been generated. -/
def finish (s : RunStamp) (directory : String) (summary : RunSummary) : FileWork JournalError Unit :=
  (writeJson (Path.join directory "summary.json") (s.summaryJson summary)).adapt .output

end Journal

end ConfigTables
