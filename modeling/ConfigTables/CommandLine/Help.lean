import ConfigTables.CommandLine.Options

/-!
    Explanations of commands: what a command is for, how it is called, and one line for each of its
    options, in two columns. -/

namespace ConfigTables.CommandLine

/-- Lines of two columns under a title. -/
def columns (title : String) (rows : List (String × String)) : String :=
  let width := (rows.map (·.1.length)).foldl max 0
  let line (row : String × String) :=
    "  " ++ row.1 ++ String.ofList (List.replicate (width - row.1.length + 2) ' ') ++ row.2 ++ "\n"
  title ++ ":\n" ++ String.join (rows.map line)

/-- How an option is written. -/
def OptionSpec.usage (o : OptionSpec) : String :=
  (match o.short with
    | some c => "-" ++ c.toString ++ ", "
    | none => "    ") ++
  "--" ++ o.long ++ if o.value = .none then "" else " <" ++ o.placeholder ++ ">"

/-- The lines about options. -/
def optionLines (options : List OptionSpec) : String :=
  columns "Options" (options.map fun o => (o.usage, o.about))

/-- An explanation: what something is for, how it is called, and what belongs to it. -/
def explanation (about usage : String) (parts : List String) : String :=
  about ++ "\n\nUsage: " ++ usage ++ "\n" ++ String.join (parts.map ("\n" ++ ·))

/-- The explanation of a command. -/
def CommandSpec.helpText (c : CommandSpec) : String :=
  let usage := program ++ " " ++ c.name
  explanation c.about (if c.options = [help] then usage else usage ++ " [OPTIONS]")
    [optionLines c.options]

/-- The explanation of the program. -/
def programHelp : String :=
  let rows := commands.map (fun c => (c.name, c.about)) ++ [(helpCommand, helpCommandAbout)]
  explanation about (program ++ " <COMMAND>") [columns "Commands" rows, optionLines [help, version]]

/-- The explanation of the command that explains the others. -/
def helpCommandHelp : String :=
  explanation helpCommandAbout (program ++ " " ++ helpCommand ++ " [COMMAND]...")
    [columns "Arguments" [("[COMMAND]...", "Print help for the subcommand(s)")]]

end ConfigTables.CommandLine
