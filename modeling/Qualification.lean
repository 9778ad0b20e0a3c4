import Qualification.Activity
import Qualification.Catalog
import Qualification.Cli.Arguments
import Qualification.Cli.Program
import Qualification.Command
import Qualification.Context
import Qualification.Decimal.Binary64
import Qualification.Definition
import Qualification.Dict
import Qualification.Digest.Sha256
import Qualification.Duration
import Qualification.Environment.Modules
import Qualification.Environment.Script
import Qualification.Fault
import Qualification.FileTree
import Qualification.Journal
import Qualification.Json.Basic
import Qualification.Json.Printer
import Qualification.Json.Reader
import Qualification.Limits
import Qualification.Log
import Qualification.Machine
import Qualification.Main
import Qualification.Manifest
import Qualification.Options.Resolved
import Qualification.Options.Spec
import Qualification.Plugin
import Qualification.Plugin.CommandLine
import Qualification.Plugin.Environ
import Qualification.Plugin.HarasserUtility
import Qualification.Plugin.Snippet
import Qualification.Proofs.Activity
import Qualification.Proofs.Definition
import Qualification.Proofs.FileTree
import Qualification.Proofs.Harasser.Asked
import Qualification.Proofs.Harasser.Course
import Qualification.Proofs.Harasser.Custody
import Qualification.Proofs.Harasser.Interleaving
import Qualification.Proofs.Harasser.Orphans
import Qualification.Proofs.Harasser.Scripts
import Qualification.Proofs.Journal
import Qualification.Proofs.Json.Record
import Qualification.Proofs.Json.RoundTrip
import Qualification.Proofs.Json.Token
import Qualification.Proofs.Options
import Qualification.Proofs.Plugin.Blind
import Qualification.Proofs.Plugin.Labels
import Qualification.Proofs.Plugin.Modules
import Qualification.Proofs.Registry.Balance
import Qualification.Proofs.Registry.Discovery
import Qualification.Proofs.Registry.History
import Qualification.Proofs.Registry.Invariant
import Qualification.Proofs.Registry.Order
import Qualification.Proofs.Registry.Plugins
import Qualification.Proofs.Registry.RollBack
import Qualification.Proofs.Run.Chronicle
import Qualification.Proofs.Run.Ending
import Qualification.Proofs.Run.Event
import Qualification.Proofs.Run.Failure
import Qualification.Proofs.Run.Gate
import Qualification.Proofs.Run.Implicit
import Qualification.Proofs.Run.Invocation
import Qualification.Proofs.Run.Position
import Qualification.Proofs.Run.Reading
import Qualification.Proofs.Run.Record
import Qualification.Proofs.Run.Replay
import Qualification.Proofs.Run.Visited
import Qualification.Proofs.Run.Walk
import Qualification.Proofs.Tasks
import Qualification.Proofs.Text.Digits
import Qualification.Proofs.Text.Lines
import Qualification.Proofs.Time.Calendar
import Qualification.Proofs.Time.Text
import Qualification.Proofs.Uuid
import Qualification.Registry.Basic
import Qualification.Registry.Order
import Qualification.Rehearsal.Actor
import Qualification.Rehearsal.Cue
import Qualification.Role
import Qualification.Run.Dispatch
import Qualification.Run.Event
import Qualification.Run.Gate
import Qualification.Run.Pipeline
import Qualification.Run.Record
import Qualification.Run.Report
import Qualification.Run.State
import Qualification.Section.Store
import Qualification.Section.Title
import Qualification.Settings
import Qualification.Shell.Arithmetic
import Qualification.Shell.Format
import Qualification.Shell.Run
import Qualification.Shell.Session
import Qualification.Shell.Statement
import Qualification.Shell.Utility
import Qualification.Shell.Word
import Qualification.Text.Blank
import Qualification.Text.Cut
import Qualification.Text.Quoted
import Qualification.Text.Utf8
import Qualification.Time
import Qualification.Uuid
import Qualification.Word
import Qualification.Yaml.Node
import Qualification.Yaml.Record
import Qualification.Yaml.Scalar
import Qualification.Yaml.Token
import Qualification.Yaml.Value
import Qualification.Proofs.Run.Unmatched
import Qualification.Proofs.Registry.Listing
import Qualification.Proofs.Registry.Prevailing
import Qualification.Proofs.Registry.Ranking
import Qualification.Proofs.Plugin.Errand
import Qualification.Proofs.Plugin.Place
import Qualification.Proofs.Plugin.Verdict
import Qualification.Proofs.Text.Blank
import Qualification.Proofs.Environment.Script
import Qualification.Proofs.Environment.Quotes
import Qualification.Proofs.Plugin.Expansion
import Qualification.Proofs.Run.Selection
import Qualification.Proofs.Run.Isolation
import Qualification.Proofs.Precedence
import Qualification.Proofs.Plugin.ModuleList
import Qualification.Proofs.Plugin.Alone
import Qualification.Proofs.Plugin.Conduct
import Qualification.Proofs.Run.Nesting
import Qualification.Proofs.Lapse
import Qualification.Proofs.Harasser.Stopping
import Qualification.Proofs.Harasser.Checking
import Qualification.Proofs.Section.Title
import Qualification.Proofs.Section.Mention
