import ConfigTables.CommandLine.Delivery
import ConfigTables.CommandLine.Reader
import ConfigTables.Emit.Targets
import ConfigTables.Rows.Folder
import ConfigTables.Settings

/-!
    The command that generates: it reads settings, a schema and the rows of tables, runs the targets
    that are asked for, and delivers what they generated. -/

namespace ConfigTables.CommandLine

/-- What a command line asks to generate. Each part is put on top of the settings. -/
structure GenRequest where
  settingsFile : Option String
  schema : Option String
  target : Option String
  codeTargets : List String
  groups : List String
  inputDirectory : Option String
  patchDirectory : Option String
  includedTags : List String
  excludedTags : List String
  assignments : List String
  out : Option String
  journal : Option String
  logFile : Option String
  dryRun : Bool

namespace GenRequest

/-- The request that options make. -/
def ofGiven (given : Given) : GenRequest where
  settingsFile := given.one? "config"
  schema := given.one? "schema"
  target := given.one? "target"
  codeTargets := given.all "code-target"
  groups := given.all "group"
  inputDirectory := given.one? "input-dir"
  patchDirectory := given.one? "patch-dir"
  includedTags := given.all "include-tag"
  excludedTags := given.all "exclude-tag"
  assignments := given.all "option"
  out := given.one? "out"
  journal := given.one? "run-dir"
  logFile := given.one? "log-file"
  dryRun := (given.one? "dry-run").isSome

/-- The file with the settings. -/
def settingsPath (r : GenRequest) : String := r.settingsFile.getD Settings.defaultFile

/-- The settings with what the command line says on top. Code targets take the place of others,
groups and tags are added to others. -/
def applyTo (r : GenRequest) (s : Settings) : Settings where
  schema := r.schema.or s.schema
  target := { s.target with
    name := r.target.getD s.target.name
    groups := s.target.groups ++ r.groups }
  codeTargets := if r.codeTargets = [] then s.codeTargets else r.codeTargets
  inputDirectory := r.inputDirectory.or s.inputDirectory
  patchDirectory := r.patchDirectory.or s.patchDirectory
  tags := {
    included := sortedNames (s.tags.included ++ r.includedTags)
    excluded := sortedNames (s.tags.excluded ++ r.excludedTags) }
  options := s.options

/-- The settings of a run. Without a file there are none, but a file that the command line names has
to be there. -/
def settings (r : GenRequest) (files : FileTree) : Except CommandError Settings :=
  if r.settingsFile.isNone && !files.pathExists r.settingsPath then .ok (r.applyTo .default)
  else
    match files.readText? r.settingsPath with
    | none => .error (.unreadable r.settingsPath)
    | some text =>
      match Settings.ofText? text with
      | none => .error (.badSettings r.settingsPath)
      | some s => .ok (r.applyTo s)

end GenRequest

/-- Settings in which nothing is missing. -/
structure RunSettings where
  schemaPath : String
  folders : RowFolders
  target : TargetConfig
  codeTargets : List String
  tags : TagFilter
  options : Options

/-- The settings of a run, with the assignments of its command line, or the first thing missing. -/
def RunSettings.make (s : Settings) (assignments : List String) :
    Except CommandError RunSettings := do
  match s.schema, s.inputDirectory, s.codeTargets with
  | none, _, _ => throw (.settings .noSchema)
  | _, none, _ => throw (.settings .noInputDirectory)
  | _, _, [] => throw (.settings .noCodeTargets)
  | some schemaPath, some input, codeTargets =>
    let options ← (assignments.foldlM Options.assign s.options).mapError (.run ∘ .option)
    return ⟨schemaPath, ⟨input, s.patchDirectory⟩, s.target, codeTargets, s.tags, options⟩

namespace RunSettings

/-- The schema of a run. -/
def graph (s : RunSettings) (files : FileTree) : Except CommandError TypeGraph :=
  match files.readText? s.schemaPath with
  | none => .error (.unreadable s.schemaPath)
  | some text =>
    match SchemaDocument.ofText? text with
    | none => .error (.malformed s.schemaPath)
    | some d => (TypeGraph.ofDocument d).mapError .schema

/-- The context of a run, with its data. Every code target has to be known. -/
def context (s : RunSettings) (files : FileTree) : Except CommandError Context := do
  let g ← s.graph files
  (s.codeTargets.forM fun name => discard (Registry.standard.target name)).mapError .run
  let ctx ← (Context.make g s.target s.tags s.options).mapError (.run ∘ .schema)
  (ctx.load (s.folders.loader files g)).mapError (.run ∘ .data)

/-- What the code targets generate. -/
def manifests (s : RunSettings) (ctx : Context) : Except CommandError (List Manifest) :=
  (Registry.standard.runAll ctx s.codeTargets).mapError .run

/-- What is going to be generated. -/
def runPlan (s : RunSettings) : RunPlan :=
  ⟨SchemaDocument.currentVersion, s.schemaPath, s.target.name, s.codeTargets⟩

end RunSettings

/-- The paths that a request reads, so far as this can be told from the files that are known. -/
def GenRequest.inputs (r : GenRequest) (files : FileTree) : List String :=
  r.logFile.toList ++ r.settingsPath ::
    match (r.settings files).bind fun s => RunSettings.make s r.assignments with
    | .error _ => []
    | .ok s =>
      s.schemaPath ::
        match s.graph files with
        | .error _ => []
        | .ok g => (g.types.exportTables s.target.groups).flatMap s.folders.paths

/-- Carries out a request. -/
def generate (stamp : RunStamp) (r : GenRequest) : FileWork CommandError Unit := do
  if let some log := r.logFile then
    (touch log).adapt fun _ => CommandError.journal (.io log)
  let s ← RunSettings.make (← r.settings (← get)) r.assignments
  let recorded ← r.journal.mapM fun journal =>
    (Journal.start stamp journal s.runPlan).adapt CommandError.journal
  let ctx ← s.context (← get)
  let manifests ← s.manifests ctx
  let targets ← Delivery.deliverAll ctx .standard r.out r.dryRun manifests
  if let some directory := recorded then
    (Journal.finish stamp directory ⟨r.dryRun, targets⟩).adapt CommandError.journal

end ConfigTables.CommandLine
