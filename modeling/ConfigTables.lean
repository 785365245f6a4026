import ConfigTables.Calendar
import ConfigTables.Calendar.Reader
import ConfigTables.Calendar.Stamp
import ConfigTables.CommandLine.Command
import ConfigTables.CommandLine.Delivery
import ConfigTables.CommandLine.Error
import ConfigTables.CommandLine.Generate
import ConfigTables.CommandLine.Help
import ConfigTables.CommandLine.Options
import ConfigTables.CommandLine.Reader
import ConfigTables.Emit.Context
import ConfigTables.Emit.DataTarget
import ConfigTables.Emit.Error
import ConfigTables.Emit.Options
import ConfigTables.Emit.Target
import ConfigTables.Emit.Targets
import ConfigTables.Emit.Wrapper.Declaration
import ConfigTables.Emit.Wrapper.Names
import ConfigTables.Emit.Wrapper.Target
import ConfigTables.Emit.Wrapper.Text
import ConfigTables.Emit.Wrapper.TypeForm
import ConfigTables.Files.Manifest
import ConfigTables.Files.Output
import ConfigTables.Files.Path
import ConfigTables.Files.Tree
import ConfigTables.Journal.Entry
import ConfigTables.Json.Basic
import ConfigTables.Json.Printer
import ConfigTables.Json.Reader
import ConfigTables.Main
import ConfigTables.NameMap
import ConfigTables.Naming.Convention
import ConfigTables.Naming.Filter
import ConfigTables.Naming.Style
import ConfigTables.Number.Binary
import ConfigTables.Number.Notation
import ConfigTables.Number.Shortest
import ConfigTables.Proofs.CommandLine.Delivered
import ConfigTables.Proofs.Emit.Agreement
import ConfigTables.Proofs.Emit.Context
import ConfigTables.Proofs.Emit.Foreseen
import ConfigTables.Proofs.Emit.MapExport
import ConfigTables.Proofs.Emit.Run
import ConfigTables.Proofs.Emit.Schedule
import ConfigTables.Proofs.Emit.Wrapper.Accessors
import ConfigTables.Proofs.Emit.Wrapper.Declared
import ConfigTables.Proofs.Emit.Wrapper.Defined
import ConfigTables.Proofs.Emit.Wrapper.Distinct
import ConfigTables.Proofs.Emit.Wrapper.Keywords
import ConfigTables.Proofs.Emit.Wrapper.Lines
import ConfigTables.Proofs.Emit.Wrapper.Members
import ConfigTables.Proofs.Emit.Wrapper.ModulePaths
import ConfigTables.Proofs.Emit.Wrapper.Readable
import ConfigTables.Proofs.Emit.Wrapper.Sized
import ConfigTables.Proofs.Files.Confined
import ConfigTables.Proofs.Files.Kept
import ConfigTables.Proofs.Files.Refused
import ConfigTables.Proofs.Files.Standing
import ConfigTables.Proofs.Files.Steps
import ConfigTables.Proofs.Files.Writing
import ConfigTables.Proofs.Lists
import ConfigTables.Proofs.NameMap
import ConfigTables.Proofs.Naming.Segments
import ConfigTables.Proofs.Naming.Spelling
import ConfigTables.Proofs.Number.Exact
import ConfigTables.Proofs.Result
import ConfigTables.Proofs.Rows.Conformance
import ConfigTables.Proofs.Rows.Covered
import ConfigTables.Proofs.Rows.EnumText
import ConfigTables.Proofs.Rows.Exported
import ConfigTables.Proofs.Rows.History
import ConfigTables.Proofs.Rows.Keyed
import ConfigTables.Proofs.Rows.Keys
import ConfigTables.Proofs.Rows.Loading
import ConfigTables.Proofs.Rows.Merged
import ConfigTables.Proofs.Rows.Nulls
import ConfigTables.Proofs.Rows.Places
import ConfigTables.Proofs.Rows.Position
import ConfigTables.Proofs.Rows.Registered
import ConfigTables.Proofs.Rows.Reimport
import ConfigTables.Proofs.Rows.Sorted
import ConfigTables.Proofs.Rows.StableSort
import ConfigTables.Proofs.Rows.TypeTag
import ConfigTables.Proofs.Schema.Accepted
import ConfigTables.Proofs.Schema.Closed
import ConfigTables.Proofs.Schema.Consistent
import ConfigTables.Proofs.Schema.Descendants
import ConfigTables.Proofs.Schema.Document
import ConfigTables.Proofs.Schema.Export
import ConfigTables.Proofs.Schema.Hierarchy
import ConfigTables.Proofs.Schema.MapKeys
import ConfigTables.Proofs.Schema.TypeExpr.Canonical
import ConfigTables.Proofs.Schema.TypeExpr.Grammar
import ConfigTables.Proofs.Text.Blank
import ConfigTables.Proofs.Text.Words
import ConfigTables.Proofs.Workers
import ConfigTables.Rows.Convert
import ConfigTables.Rows.Error
import ConfigTables.Rows.Folder
import ConfigTables.Rows.Load
import ConfigTables.Rows.Merge
import ConfigTables.Rows.Scalar
import ConfigTables.Rows.Store
import ConfigTables.Rows.Value
import ConfigTables.Schema.Closure
import ConfigTables.Schema.Consistency
import ConfigTables.Schema.Declarations
import ConfigTables.Schema.Definition
import ConfigTables.Schema.Document
import ConfigTables.Schema.Error
import ConfigTables.Schema.Graph
import ConfigTables.Schema.Shape
import ConfigTables.Schema.TypeExpr
import ConfigTables.Schema.TypeExpr.Reader
import ConfigTables.Settings
import ConfigTables.Text.Blank
import ConfigTables.Text.Letter
import ConfigTables.Text.Letter.Cases
import ConfigTables.Text.Letter.Classes
import ConfigTables.Text.Words
import ConfigTables.Toml.Basic
import ConfigTables.Toml.Reader
import ConfigTables.Toml.Scalar
import ConfigTables.Toml.Slot
import ConfigTables.Toml.Text
