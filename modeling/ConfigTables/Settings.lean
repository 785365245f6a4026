import ConfigTables.Emit.Context
import ConfigTables.Toml.Reader

/-!
    Settings of a run: what to generate from which files. They stand in a TOML file, in which
    everything may be left out, and what a command line says is put on top of them. -/

namespace ConfigTables

/-- The settings of a run. -/
structure Settings where
  schema : Option String
  target : TargetConfig
  codeTargets : List String
  inputDirectory : Option String
  patchDirectory : Option String
  tags : TagFilter
  options : Options

namespace Settings

open Toml (record? default?)

/-- The file with the settings, unless another is named. -/
def defaultFile : String := "tablegen.toml"

/-- The target of settings that name none. -/
def defaultTarget : TargetConfig := ⟨"default", TargetConfig.defaultManager, "", []⟩

/-- The settings when nothing is said. -/
def default : Settings := ⟨none, defaultTarget, [], none, none, ⟨[], []⟩, .empty⟩

/-- A text that may be left out. -/
def optional? (members : List (String × Toml)) (name : String) : Option (Option String) :=
  default? members name none fun v => v.asString?.map some

/-- Reads the target and the names of the code targets. -/
def target? (v : Toml) : Option (TargetConfig × List String) := do
  let m ← record? ["name", "manager", "top_module", "groups", "code_targets"] v
  return (
    { name := ← default? m "name" defaultTarget.name Toml.asString?
      manager := ← default? m "manager" defaultTarget.manager Toml.asString?
      topModule := ← default? m "top_module" defaultTarget.topModule Toml.asString?
      groups := ← default? m "groups" defaultTarget.groups Toml.asStrings? },
    ← default? m "code_targets" [] Toml.asStrings?)

/-- Reads the two directories and the tags. -/
def data? (v : Toml) : Option (Option String × Option String × TagFilter) := do
  let m ← record? ["input_dir", "patch_dir", "include_tags", "exclude_tags"] v
  return (← optional? m "input_dir", ← optional? m "patch_dir",
    { included := sortedNames (← default? m "include_tags" [] Toml.asStrings?)
      excluded := sortedNames (← default? m "exclude_tags" [] Toml.asStrings?) })

/-- Reads settings. -/
def ofToml? (v : Toml) : Option Settings := do
  let m ← v.members?
  let schema ← optional? m "schema"
  let (target, codeTargets) ← default? m "target" (defaultTarget, []) target?
  let (inputDirectory, patchDirectory, tags) ← default? m "data" (none, none, ⟨[], []⟩) data?
  let options ← default? m "options" [] Toml.asTextMembers?
  return { schema, target, codeTargets, inputDirectory, patchDirectory, tags,
           options := .ofList options }

/-- The settings that the text of a file holds. -/
def ofText? (text : String) : Option Settings := (Toml.ofText? text).bind ofToml?

end Settings

end ConfigTables
