import Runbook.Batch.Basic
import Runbook.Batch.Execution
import Runbook.Batch.Schedule
import Runbook.Breaker.Basic
import Runbook.Breaker.Roster
import Runbook.Broadcast
import Runbook.Call
import Runbook.Context
import Runbook.Conversation
import Runbook.Database.Answer
import Runbook.Database.Cell
import Runbook.Database.Guard
import Runbook.Database.Statement
import Runbook.Database.Table
import Runbook.Decimal.Layout
import Runbook.Decimal.Reading
import Runbook.Decimal.Shortest
import Runbook.Dependency.Graph
import Runbook.Duration
import Runbook.Ending
import Runbook.Fault
import Runbook.Files.Tree
import Runbook.Http.EventStream
import Runbook.Http.Exchange
import Runbook.Json.Cursor
import Runbook.Json.Flaw
import Runbook.Json.Printer
import Runbook.Json.Reader
import Runbook.Json.Shape
import Runbook.Json.Value
import Runbook.Logs.Line
import Runbook.Logs.Window
import Runbook.Main
import Runbook.Model.Access
import Runbook.Model.Offline
import Runbook.Model.Planning
import Runbook.Model.Provider
import Runbook.Model.Remote
import Runbook.Model.RemoteStream
import Runbook.Model.Review
import Runbook.Plan.Basic
import Runbook.Plan.Decision
import Runbook.Plan.Format
import Runbook.Plan.Prompt
import Runbook.Plan.Reply
import Runbook.Plan.Step
import Runbook.Proofs.Batch.Completion
import Runbook.Proofs.Batch.Concurrency
import Runbook.Proofs.Batch.Conduct
import Runbook.Proofs.Batch.Course
import Runbook.Proofs.Batch.Effects
import Runbook.Proofs.Batch.FailFast
import Runbook.Proofs.Batch.Fulfilment
import Runbook.Proofs.Batch.Interruption
import Runbook.Proofs.Batch.Invocations
import Runbook.Proofs.Batch.Outcomes
import Runbook.Proofs.Batch.Permits
import Runbook.Proofs.Batch.Places
import Runbook.Proofs.Batch.Progress
import Runbook.Proofs.Batch.Readiness
import Runbook.Proofs.Batch.Schedule
import Runbook.Proofs.Batch.Tally
import Runbook.Proofs.Batch.Taskwise
import Runbook.Proofs.Batch.Traces
import Runbook.Proofs.Batch.Tripping
import Runbook.Proofs.Breaker.Counters
import Runbook.Proofs.Breaker.Events
import Runbook.Proofs.Breaker.Gates
import Runbook.Proofs.Breaker.Isolation
import Runbook.Proofs.Breaker.Memory
import Runbook.Proofs.Breaker.OneCall
import Runbook.Proofs.Breaker.Probes
import Runbook.Proofs.Breaker.Sharing
import Runbook.Proofs.Breaker.Shelf
import Runbook.Proofs.Breaker.Turns
import Runbook.Proofs.Breaker.Visits
import Runbook.Proofs.Broadcast
import Runbook.Proofs.Catalogue.Registrations
import Runbook.Proofs.Catalogue.Views
import Runbook.Proofs.Chunks.Completion
import Runbook.Proofs.Chunks.Exchange
import Runbook.Proofs.Chunks.Order
import Runbook.Proofs.Chunks.Relay
import Runbook.Proofs.Context
import Runbook.Proofs.Context.Lineage
import Runbook.Proofs.Context.Standing
import Runbook.Proofs.Context.Waiting
import Runbook.Proofs.Database.Guard
import Runbook.Proofs.Database.Statement
import Runbook.Proofs.Database.Tables
import Runbook.Proofs.Decimal.Numerals
import Runbook.Proofs.Decimal.Written
import Runbook.Proofs.Dependency.Layers
import Runbook.Proofs.Dependency.Order
import Runbook.Proofs.Dependency.Table
import Runbook.Proofs.Dependency.Traversal
import Runbook.Proofs.Documents.Ranking
import Runbook.Proofs.Documents.Snippets
import Runbook.Proofs.History
import Runbook.Proofs.Json.Fields
import Runbook.Proofs.Json.Passing
import Runbook.Proofs.Logs.Lines
import Runbook.Proofs.Logs.Window
import Runbook.Proofs.Plan.Declared
import Runbook.Proofs.Plan.Replies
import Runbook.Proofs.Plan.StepIds
import Runbook.Proofs.Rehearsal.Attempts
import Runbook.Proofs.Rehearsal.Bystanders
import Runbook.Proofs.Rehearsal.Chunks
import Runbook.Proofs.Rehearsal.Invocation
import Runbook.Proofs.Rehearsal.Limits
import Runbook.Proofs.Rehearsal.Lone
import Runbook.Proofs.Rehearsal.Refinement
import Runbook.Proofs.Rehearsal.Refusal
import Runbook.Proofs.Rehearsal.Resolution
import Runbook.Proofs.Rehearsal.Scene
import Runbook.Proofs.Rehearsal.Shortcut
import Runbook.Proofs.Rehearsal.Watched
import Runbook.Proofs.Results
import Runbook.Proofs.Retry
import Runbook.Proofs.Retry.Account
import Runbook.Proofs.Run.Answers
import Runbook.Proofs.Run.Chronicle
import Runbook.Proofs.Run.Containment
import Runbook.Proofs.Run.Cutoff
import Runbook.Proofs.Run.Deeds
import Runbook.Proofs.Run.Endings
import Runbook.Proofs.Run.Episodes
import Runbook.Proofs.Run.Errands
import Runbook.Proofs.Run.HeedfulCrews
import Runbook.Proofs.Run.Heeding
import Runbook.Proofs.Run.Iterations
import Runbook.Proofs.Run.Mirrors
import Runbook.Proofs.Run.Orchestration
import Runbook.Proofs.Run.Plans
import Runbook.Proofs.Run.Reliable
import Runbook.Proofs.Run.Rounds
import Runbook.Proofs.Settings.Forms
import Runbook.Proofs.Settings.Layering
import Runbook.Proofs.Settings.Leaves
import Runbook.Proofs.Settings.Settling
import Runbook.Proofs.Settings.Variables
import Runbook.Proofs.Settings.Writings
import Runbook.Proofs.Shutdown
import Runbook.Proofs.Sorting
import Runbook.Proofs.Text.Cuts
import Runbook.Proofs.Text.Encoding
import Runbook.Proofs.Text.LowerChar
import Runbook.Proofs.Text.Lowercase
import Runbook.Proofs.Text.Lowered
import Runbook.Proofs.Text.Occurrences
import Runbook.Proofs.Text.Parts
import Runbook.Proofs.Text.Words
import Runbook.Race
import Runbook.Rehearsal.DryRun
import Runbook.Rehearsal.Invocation
import Runbook.Rehearsal.Operation
import Runbook.Rehearsal.Scene
import Runbook.Rehearsal.Script
import Runbook.Rehearsal.Studio
import Runbook.Rehearsal.World
import Runbook.Rehearsal.Written
import Runbook.Retry
import Runbook.Run.Event
import Runbook.Run.Iteration
import Runbook.Run.Journal
import Runbook.Run.Phase
import Runbook.Run.Report
import Runbook.Run.State
import Runbook.Run.Trace
import Runbook.Settings.Basic
import Runbook.Settings.Entry
import Runbook.Settings.Layers
import Runbook.Settings.Place
import Runbook.Settings.Typing
import Runbook.Shutdown
import Runbook.Text.Blank
import Runbook.Text.Cut
import Runbook.Text.Lowercase
import Runbook.Text.Search
import Runbook.Text.Table
import Runbook.Text.Utf8
import Runbook.Text.Visible
import Runbook.Text.WordChar
import Runbook.Text.Words
import Runbook.Toml.Reader
import Runbook.Toml.Scalar
import Runbook.Toml.Table
import Runbook.Tool.Attempt
import Runbook.Tool.Catalogue
import Runbook.Tool.Metadata
import Runbook.Toolbox.Alerts
import Runbook.Toolbox.Documents
import Runbook.Toolbox.Input
import Runbook.Toolbox.Logs
import Runbook.Toolbox.Query
import Runbook.Toolbox.Service
import Runbook.Toolbox.Standard
import Runbook.Toolbox.Time
