import ImagePipeline.BaseImage
import ImagePipeline.Build.Basic
import ImagePipeline.Build.Run
import ImagePipeline.Command.Basic
import ImagePipeline.Command.Error
import ImagePipeline.Command.Exchange
import ImagePipeline.CommandLine.Option
import ImagePipeline.CommandLine.Request
import ImagePipeline.CommandLine.Run
import ImagePipeline.Config.Basic
import ImagePipeline.Config.Check
import ImagePipeline.Config.Document
import ImagePipeline.Decimal.Fixed
import ImagePipeline.Decimal.Shortest
import ImagePipeline.Dockerfile.Generate
import ImagePipeline.Dockerfile.Lint
import ImagePipeline.Duration
import ImagePipeline.Failure
import ImagePipeline.Files.Basic
import ImagePipeline.Hash.Sha256
import ImagePipeline.Json.Basic
import ImagePipeline.Json.Reading
import ImagePipeline.Lock
import ImagePipeline.Main
import ImagePipeline.Matrix.Basic
import ImagePipeline.Matrix.Plan
import ImagePipeline.Metrics.Basic
import ImagePipeline.Metrics.Collector
import ImagePipeline.Metrics.Exposition
import ImagePipeline.NewProject
import ImagePipeline.OrderedMap
import ImagePipeline.Path
import ImagePipeline.Path.Pattern
import ImagePipeline.Preset
import ImagePipeline.Project
import ImagePipeline.Proofs.Build.Counts
import ImagePipeline.Proofs.Build.Digest
import ImagePipeline.Proofs.Build.Lock
import ImagePipeline.Proofs.Build.LockHash
import ImagePipeline.Proofs.Build.Options
import ImagePipeline.Proofs.Build.Plan
import ImagePipeline.Proofs.Build.Refusal
import ImagePipeline.Proofs.Build.Selection
import ImagePipeline.Proofs.Command.Line
import ImagePipeline.Proofs.CommandLine.Gate
import ImagePipeline.Proofs.Config.ArgumentNames
import ImagePipeline.Proofs.Config.Check
import ImagePipeline.Proofs.Config.Following
import ImagePipeline.Proofs.Config.Generation
import ImagePipeline.Proofs.Config.Names
import ImagePipeline.Proofs.Config.Omission
import ImagePipeline.Proofs.Config.Removal
import ImagePipeline.Proofs.Config.Report
import ImagePipeline.Proofs.Config.Revision
import ImagePipeline.Proofs.Config.RoundTrip
import ImagePipeline.Proofs.Config.Soundness
import ImagePipeline.Proofs.Decimal.Shortest
import ImagePipeline.Proofs.Dockerfile.Arguments
import ImagePipeline.Proofs.Dockerfile.Generation
import ImagePipeline.Proofs.Dockerfile.Lint
import ImagePipeline.Proofs.Duration
import ImagePipeline.Proofs.Duration.Grammar
import ImagePipeline.Proofs.Files.Changes
import ImagePipeline.Proofs.Files.Contents
import ImagePipeline.Proofs.Files.Extension
import ImagePipeline.Proofs.Files.Overwriting
import ImagePipeline.Proofs.Files.Places
import ImagePipeline.Proofs.Files.Realization
import ImagePipeline.Proofs.Files.Steps
import ImagePipeline.Proofs.Files.Writing
import ImagePipeline.Proofs.HandsOff
import ImagePipeline.Proofs.Hash.Sha256
import ImagePipeline.Proofs.Matrix.Affected
import ImagePipeline.Proofs.Matrix.Changes
import ImagePipeline.Proofs.Matrix.Jobs
import ImagePipeline.Proofs.Matrix.Plan
import ImagePipeline.Proofs.Metrics.Counts
import ImagePipeline.Proofs.Metrics.ReadBack
import ImagePipeline.Proofs.Metrics.SampleText
import ImagePipeline.Proofs.Metrics.Timers
import ImagePipeline.Proofs.Mishap
import ImagePipeline.Proofs.NewProject.Creation
import ImagePipeline.Proofs.NewProject.Layout
import ImagePipeline.Proofs.NewProject.Overwriting
import ImagePipeline.Proofs.OrderedMap
import ImagePipeline.Proofs.Path.Components
import ImagePipeline.Proofs.Path.Pattern
import ImagePipeline.Proofs.Plan
import ImagePipeline.Proofs.Project.Relative
import ImagePipeline.Proofs.Publication.References
import ImagePipeline.Proofs.Publication.Shares
import ImagePipeline.Proofs.Rehearsal.Commands
import ImagePipeline.Proofs.Rehearsal.Files
import ImagePipeline.Proofs.Scan.Plan
import ImagePipeline.Proofs.Scan.Prefix
import ImagePipeline.Proofs.Template.ActionLines
import ImagePipeline.Proofs.Template.Blocks
import ImagePipeline.Proofs.Template.Concatenation
import ImagePipeline.Proofs.Template.FaultLines
import ImagePipeline.Proofs.Template.Guards
import ImagePipeline.Proofs.Template.Insertion
import ImagePipeline.Proofs.Template.Layout
import ImagePipeline.Proofs.Template.Leftovers
import ImagePipeline.Proofs.Template.Marks
import ImagePipeline.Proofs.Template.Mentions
import ImagePipeline.Proofs.Template.PlainText
import ImagePipeline.Proofs.Template.ReadBack
import ImagePipeline.Proofs.Template.Refinement
import ImagePipeline.Proofs.Template.Render
import ImagePipeline.Proofs.Template.Scopes
import ImagePipeline.Proofs.Template.Skeleton
import ImagePipeline.Proofs.Template.SkeletonScopes
import ImagePipeline.Proofs.Template.Texts
import ImagePipeline.Proofs.Template.ToolChoice
import ImagePipeline.Proofs.Text.Blank
import ImagePipeline.Proofs.Text.Digits
import ImagePipeline.Proofs.Text.Doubled
import ImagePipeline.Proofs.Text.Lines
import ImagePipeline.Proofs.Text.Pieces
import ImagePipeline.Proofs.Text.Utf8
import ImagePipeline.Proofs.Text.Words
import ImagePipeline.Proofs.Trial.Deadline
import ImagePipeline.Proofs.Trial.Probes
import ImagePipeline.Proofs.Trial.Removal
import ImagePipeline.Proofs.Trial.Rounds
import ImagePipeline.Proofs.Trial.Run
import ImagePipeline.Proofs.Work
import ImagePipeline.Proofs.Yaml.Revision
import ImagePipeline.Proofs.Yaml.Tree
import ImagePipeline.Publication.Steps
import ImagePipeline.Runner.Basic
import ImagePipeline.Runner.DryRun
import ImagePipeline.Runner.Scripted
import ImagePipeline.Runner.System
import ImagePipeline.Scan.Basic
import ImagePipeline.Scan.Policy
import ImagePipeline.Scan.Run
import ImagePipeline.Session
import ImagePipeline.Shell.Builtin
import ImagePipeline.Shell.Format
import ImagePipeline.Shell.Program
import ImagePipeline.Shell.Run
import ImagePipeline.Shell.Script
import ImagePipeline.Shell.State
import ImagePipeline.Shell.Token
import ImagePipeline.Shell.Word
import ImagePipeline.Template.Action
import ImagePipeline.Template.Context
import ImagePipeline.Template.Render
import ImagePipeline.Template.Skeleton
import ImagePipeline.Template.Tree
import ImagePipeline.Text.Blank
import ImagePipeline.Text.Digits
import ImagePipeline.Text.Lines
import ImagePipeline.Text.Pieces
import ImagePipeline.Text.Utf8
import ImagePipeline.Timestamp
import ImagePipeline.Trial.Basic
import ImagePipeline.Trial.Run
import ImagePipeline.Trial.StructureFile
import ImagePipeline.Yaml.Cursor
import ImagePipeline.Yaml.Fault
import ImagePipeline.Yaml.Node
import ImagePipeline.Yaml.Node.Reading
import ImagePipeline.Yaml.Scalar
import ImagePipeline.Yaml.Token
import ImagePipeline.Yaml.Token.Directive
import ImagePipeline.Yaml.Token.Reading
import ImagePipeline.Yaml.Token.Scalar
import ImagePipeline.Yaml.Value
import ImagePipeline.Yaml.Value.Writing
