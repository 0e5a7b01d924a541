import PluginHost.Assoc
import PluginHost.Binary64.Basic
import PluginHost.Cli.Collection
import PluginHost.Cli.CommandLine
import PluginHost.Cli.Execution
import PluginHost.Cli.Listing
import PluginHost.Compile.Compiler
import PluginHost.Compile.Diagnostic
import PluginHost.Compile.External
import PluginHost.Compile.Scripted
import PluginHost.Compile.Staging
import PluginHost.Compile.Toolchain
import PluginHost.Compile.Units
import PluginHost.Compliance.Analysis
import PluginHost.Compliance.Report
import PluginHost.Compliance.Verify
import PluginHost.Digest.Sha256
import PluginHost.Disk.Change
import PluginHost.Disk.Disk
import PluginHost.Disk.IoFault
import PluginHost.Fault
import PluginHost.FaultCodec
import PluginHost.Image.Artifact
import PluginHost.Image.Codec
import PluginHost.Image.Module
import PluginHost.Image.TypeRef
import PluginHost.Json.Access
import PluginHost.Json.Decoder
import PluginHost.Json.Printer
import PluginHost.Json.Reader
import PluginHost.Json.Record
import PluginHost.Json.Value
import PluginHost.Lifecycle.Codec
import PluginHost.Lifecycle.Outcome
import PluginHost.Lifecycle.Plugin
import PluginHost.Lifecycle.Script
import PluginHost.Main
import PluginHost.Members
import PluginHost.NameSet
import PluginHost.Orchestration.Run
import PluginHost.Patching.HookTable
import PluginHost.Patching.Patch
import PluginHost.Path
import PluginHost.Policy.Codec
import PluginHost.Policy.Policy
import PluginHost.Program.Program
import PluginHost.Proofs.Compile.Artifacts
import PluginHost.Proofs.Compliance.Disguise
import PluginHost.Proofs.Compliance.FailClosed
import PluginHost.Proofs.Compliance.Mentions
import PluginHost.Proofs.Image.Occurrence
import PluginHost.Proofs.Orchestration.Course
import PluginHost.Proofs.Orchestration.PluginRun
import PluginHost.Proofs.Text.Cut
import PluginHost.Regex.Basic
import PluginHost.Regex.Reader
import PluginHost.Registry
import PluginHost.Report.Aggregate
import PluginHost.Savedata.Failing
import PluginHost.Savedata.Store
import PluginHost.Settings.Storage
import PluginHost.Settings.Settings
import PluginHost.Shell.Arithmetic
import PluginHost.Shell.Builtin.Control
import PluginHost.Shell.Builtin.Variables
import PluginHost.Shell.State
import PluginHost.Shell.Condition
import PluginHost.Shell.Evaluate
import PluginHost.Shell.Expansion
import PluginHost.Shell.Field
import PluginHost.Shell.Installation
import PluginHost.Shell.Interpreter
import PluginHost.Shell.Launch
import PluginHost.Shell.Machine
import PluginHost.Shell.Parameter
import PluginHost.Shell.Parser
import PluginHost.Shell.Pattern
import PluginHost.Shell.Word
import PluginHost.Shell.Syntax
import PluginHost.Shell.Token
import PluginHost.SortedMap
import PluginHost.Symbol
import PluginHost.Text.Cut
import PluginHost.Text.CharClass
import PluginHost.Text.Numeral
import PluginHost.Text.Directive
import PluginHost.Text.Escape
import PluginHost.Text.Formatting
import PluginHost.Text.Quoted
import PluginHost.Text.Real
import PluginHost.Text.Utf8
import PluginHost.Toml.Datetime
import PluginHost.Toml.Reader
import PluginHost.Toml.Exact
import PluginHost.Toml.Printer
import PluginHost.Toml.Scalar
import PluginHost.Toml.Tree
import PluginHost.Toml.Value
import PluginHost.Utility.Awk.Evaluate
import PluginHost.Utility.Awk.Parser
import PluginHost.Utility.Awk.Program
import PluginHost.Utility.Awk.Runtime
import PluginHost.Utility.Awk.Syntax
import PluginHost.Utility.Awk.Value
import PluginHost.Utility.Launching
import PluginHost.Utility.Bytes
import PluginHost.Utility.Columns
import PluginHost.Utility.Difference
import PluginHost.Utility.Files
import PluginHost.Utility.Find
import PluginHost.Utility.Grep
import PluginHost.Utility.Lines
import PluginHost.Utility.Names
import PluginHost.Utility.Numbers
import PluginHost.Utility.Task
import PluginHost.Utility.Sed.Edit
import PluginHost.Utility.Sed.Script
import PluginHost.Utility.Sorting
import PluginHost.Utility.Words
import PluginHost.Proofs.Order.StablySorted
import PluginHost.Proofs.Patching.Chain
import PluginHost.Proofs.Patching.History
import PluginHost.Proofs.Orchestration.Attachment
import PluginHost.Proofs.Text.Utf8
import PluginHost.Proofs.Json.Numeral
import PluginHost.Proofs.Json.ReadBack
import PluginHost.Proofs.Json.Record
import PluginHost.Proofs.Image.RoundTrip
import PluginHost.Proofs.Image.Stream
import PluginHost.Proofs.Image.Refusal
import PluginHost.Proofs.Compile.Delivery
import PluginHost.Proofs.Orchestration.Vetting
import PluginHost.Proofs.Orchestration.Preparation
import PluginHost.Proofs.Orchestration.Interleaving
import PluginHost.Proofs.Savedata.Updates
import PluginHost.Proofs.Orchestration.Withholding
import PluginHost.Proofs.Orchestration.Isolation
import PluginHost.Proofs.Registry.Discovery
import PluginHost.Proofs.Regex.Ends
import PluginHost.Proofs.Regex.Search
import PluginHost.Proofs.Regex.Reader
import PluginHost.Proofs.Shell.Machine
import PluginHost.Proofs.Registry.BaseChain
import PluginHost.Proofs.Compile.Framing
import PluginHost.Proofs.Disk.Steps
import PluginHost.Proofs.Disk.Entries
import PluginHost.Proofs.Compile.StagingArea
import PluginHost.Proofs.Compile.StagingHistory
import PluginHost.Proofs.Policy.Verdict
import PluginHost.Proofs.Policy.Strictness
import PluginHost.Proofs.Policy.Gradation
import PluginHost.Proofs.Policy.Additions
import PluginHost.Proofs.Policy.Spelling
import PluginHost.Proofs.Toml.Table
import PluginHost.Proofs.Policy.Document
import PluginHost.Proofs.Disk.Walk
import PluginHost.Proofs.Disk.Growth
import PluginHost.Proofs.Members.Confinement
import PluginHost.Proofs.Savedata.Origin
import PluginHost.Proofs.Savedata.Documents
import PluginHost.Proofs.Cli.Collection
import PluginHost.Proofs.Cli.RequiredTier
import PluginHost.Proofs.Orchestration.Repetition
import PluginHost.Proofs.Compliance.Rearrangement
import PluginHost.Proofs.Report.Accounts
import PluginHost.Proofs.Disk.Siblings
import PluginHost.Proofs.Compile.UnitNames
import PluginHost.Proofs.Cli.Building
import PluginHost.Proofs.Compile.Temporaries
import PluginHost.Proofs.Compile.StagingOutcome
import PluginHost.Proofs.Compile.Tasks
import PluginHost.Proofs.Compile.Steadiness
import PluginHost.Proofs.Compliance.Batch
import PluginHost.Proofs.Savedata.Placement
import PluginHost.Proofs.Orchestration.Reapplication
import PluginHost.Proofs.Report.RoundTrip
import PluginHost.Proofs.Image.Header
import PluginHost.Proofs.Image.Lookup
import PluginHost.Proofs.Policy.Ranks
import PluginHost.Proofs.Registry.Search
import PluginHost.Proofs.Registry.Circle
import PluginHost.Proofs.Compliance.Identities
import PluginHost.Proofs.Disk.Tidy
import PluginHost.Proofs.Cli.CollectionOrder
import PluginHost.Proofs.Settings.PartialDocument
import PluginHost.Proofs.Patching.QualifiedName
import PluginHost.Proofs.Text.Blank
import PluginHost.Proofs.Text.Slice
import PluginHost.Proofs.Compile.ErrorLine
import PluginHost.Proofs.Compile.Failure
import PluginHost.Proofs.Settings.Assignment
import PluginHost.Proofs.Image.Flattening
import PluginHost.Proofs.Compliance.Signature
import PluginHost.Proofs.Compile.Numbering
import PluginHost.Proofs.Turns
import PluginHost.Proofs.Report.Retention
