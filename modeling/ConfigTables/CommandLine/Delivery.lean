import ConfigTables.CommandLine.Error
import ConfigTables.Emit.Target

/-!
    Delivering what the targets of a run generated. The directory of every target is found before the
    first file is written, so a missing one leaves all files as they were; and what is said of a
    delivery afterwards depends on its plan alone, whether files are written or not. -/

namespace ConfigTables

/-- The files of a target, and the directory that they are to be written to. -/
structure Delivery where
  directory : String
  manifest : Manifest
  deriving DecidableEq

namespace Delivery

/-- The directory of a target: the one that its option names, or one of its name below `out`. -/
def directory? (ctx : Context) (out : Option String) (target : Target) : Option String :=
  (ctx.options.find? target.name target.directoryKey).or (out.map (Path.join · target.name))

/-- The delivery of a manifest. -/
def ofManifest (ctx : Context) (r : Registry) (out : Option String) (m : Manifest) :
    Except CommandError Delivery := do
  let target ← (r.target m.target).mapError .run
  match directory? ctx out target with
  | some directory => return ⟨directory, m⟩
  | none => throw (.settings (.noOutputDirectory target.name target.directoryKey))

/-- The deliveries of some manifests, or the failure for the first that has no directory. -/
def plan (ctx : Context) (r : Registry) (out : Option String) (manifests : List Manifest) :
    Except CommandError (List Delivery) :=
  manifests.mapM (ofManifest ctx r out)

/-- What is said of a delivery. -/
def summary (d : Delivery) : TargetSummary :=
  ⟨d.manifest.target, d.directory, d.manifest.files.length, d.manifest.bytes⟩

/-- Writes the files of a delivery. -/
def write (d : Delivery) : FileWork CommandError Unit :=
  (discard (writeManifest d.directory d.manifest.files)).adapt CommandError.output

/-- Carries out deliveries in order, or only says what they would be. -/
def deliver (dryRun : Bool) : List Delivery → FileWork CommandError (List TargetSummary)
  | [] => pure []
  | d :: rest => do
    unless dryRun do d.write
    return d.summary :: (← deliver dryRun rest)

/-- Delivers some manifests. -/
def deliverAll (ctx : Context) (r : Registry) (out : Option String) (dryRun : Bool)
    (manifests : List Manifest) : FileWork CommandError (List TargetSummary) := do
  deliver dryRun (← plan ctx r out manifests)

end Delivery

end ConfigTables
