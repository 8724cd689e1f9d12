import BrowserFlow.Context
import BrowserFlow.Main
import BrowserFlow.Proofs.Effect
import BrowserFlow.Proofs.Execution.Naming
import BrowserFlow.Proofs.Registry
import BrowserFlow.Proofs.Execution.Completion
import BrowserFlow.Proofs.World.Talk
import BrowserFlow.Proofs.Session.Ledger
import BrowserFlow.Proofs.Decider
import BrowserFlow.Proofs.Session.Lap
import BrowserFlow.Proofs.Session.Stint
import BrowserFlow.Proofs.Session.Phases
import BrowserFlow.Proofs.Session.Acceptance
import BrowserFlow.Proofs.Session.Cap
import BrowserFlow.Proofs.Document.Refusal
import BrowserFlow.Proofs.Verification.Reading
import BrowserFlow.Proofs.Session.Call
import BrowserFlow.Proofs.Session.Judgement
import BrowserFlow.Proofs.Json.Locality
import BrowserFlow.Proofs.Verification.Prose
import BrowserFlow.Proofs.Document.Joining
import BrowserFlow.Proofs.Session.Growth
import BrowserFlow.Proofs.Disk.Place
import BrowserFlow.Proofs.Json.Lasting
import BrowserFlow.Proofs.Library.Record
import BrowserFlow.Proofs.Library.Shelf
import BrowserFlow.Proofs.Library.Lookup
import BrowserFlow.Proofs.Library.Operations
import BrowserFlow.Proofs.Library.Course
import BrowserFlow.Proofs.Library.Index
import BrowserFlow.Proofs.Library.Catalogue
import BrowserFlow.Proofs.Library.Naming
import BrowserFlow.Proofs.Library.Versions
import BrowserFlow.Proofs.Json.Writable
import BrowserFlow.Proofs.Disk.Writing
import BrowserFlow.Proofs.Library.Mutation
import BrowserFlow.Proofs.Journal.Record
import BrowserFlow.Proofs.Journal.Listing
import BrowserFlow.Proofs.Journal.Creation
import BrowserFlow.Proofs.Disk.Bounds
import BrowserFlow.Proofs.World.Identifier
import BrowserFlow.Proofs.World.Onward
import BrowserFlow.Proofs.World.Frame
import BrowserFlow.Proofs.Execution.Advance
import BrowserFlow.Proofs.Execution.Files
import BrowserFlow.Proofs.Journal.Kept
import BrowserFlow.Proofs.Session.Folders
import BrowserFlow.Proofs.Session.Frame
import BrowserFlow.Proofs.Session.Journal
import BrowserFlow.Proofs.Session.Replay
import BrowserFlow.Proofs.Text.Words
import BrowserFlow.Proofs.Session.Refinement
import BrowserFlow.Proofs.Session.Alert
import BrowserFlow.Proofs.Parallel
import BrowserFlow.Proofs.World.Link
import BrowserFlow.Proofs.Execution.Rerun
import BrowserFlow.Proofs.Session.Rerun
import BrowserFlow.Proofs.World.Beside
import BrowserFlow.Proofs.Execution.Strict
import BrowserFlow.Proofs.Execution.Account
import BrowserFlow.Proofs.Execution.Stored
import BrowserFlow.Proofs.Session.Twin
import BrowserFlow.Proofs.Session.Modified
import BrowserFlow.Proofs.Text.InOrder
import BrowserFlow.Proofs.Session.Instructions
import BrowserFlow.Proofs.Text.Lines
import BrowserFlow.Proofs.Text.Scan
import BrowserFlow.Proofs.Document.Parts
import BrowserFlow.Proofs.Reply.Passage
import BrowserFlow.Proofs.Session.FollowUp
import BrowserFlow.Proofs.Outcomes
import BrowserFlow.Proofs.Yaml.Frame
import BrowserFlow.Proofs.Yaml.Margin
import BrowserFlow.Proofs.Yaml.Names
import BrowserFlow.Proofs.Yaml.Run
import BrowserFlow.Proofs.Yaml.Scalar.Block
import BrowserFlow.Proofs.Yaml.Scalar.Plain
import BrowserFlow.Proofs.Yaml.Scalar.Quoted
import BrowserFlow.Proofs.Yaml.Token
import BrowserFlow.Proofs.Reply.Whole
import BrowserFlow.Proofs.Step.Registration
import BrowserFlow.Proofs.Digest.Budget
import BrowserFlow.Proofs.Step.Notation
import BrowserFlow.Proofs.Step.Aim
import BrowserFlow.Proofs.World.Faults
import BrowserFlow.Proofs.Execution.Touch
import BrowserFlow.Proofs.Text.Distinct
import BrowserFlow.Proofs.Text.Collapse
import BrowserFlow.Proofs.Digest.Grouping
import BrowserFlow.Proofs.Digest.Excerpts
import BrowserFlow.Proofs.World.Calls
import BrowserFlow.Proofs.Perception
import BrowserFlow.Proofs.Candidate
import BrowserFlow.Proofs.Ranking
import BrowserFlow.Proofs.Extraction.Csv
import BrowserFlow.Proofs.Json.Edges
import BrowserFlow.Proofs.Extraction.Summary
import BrowserFlow.Proofs.Execution.Scripts
import BrowserFlow.Proofs.Execution.Found
import BrowserFlow.Proofs.Execution.Bare
import BrowserFlow.Proofs.Disk.Inside
import BrowserFlow.Proofs.Execution.Written
import BrowserFlow.Proofs.World.Deadline
import BrowserFlow.Proofs.Execution.Duration
import BrowserFlow.Proofs.Text.Figure
import BrowserFlow.Proofs.Menu
import BrowserFlow.Proofs.Json.RoundTrip
import BrowserFlow.Proofs.Persistence
import BrowserFlow.Proofs.Selector.Attribute
import BrowserFlow.Proofs.Selector.Settled
import BrowserFlow.Proofs.Selector.Normal
import BrowserFlow.Proofs.Template
import BrowserFlow.Proofs.Text.Casing
import BrowserFlow.Proofs.Session.Wording
import BrowserFlow.Proofs.Extraction.Query
import BrowserFlow.Proofs.Selector.Parts
import BrowserFlow.Proofs.Session.Search
import BrowserFlow.Proofs.Document.Taking
import BrowserFlow.Proofs.Session.Commands
