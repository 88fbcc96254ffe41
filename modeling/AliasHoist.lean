import AliasHoist.Command.Check
import AliasHoist.Command.Collect
import AliasHoist.Command.Error
import AliasHoist.Command.Fix
import AliasHoist.Command.Invocation
import AliasHoist.Command.Run
import AliasHoist.Command.Scan
import AliasHoist.Config
import AliasHoist.Console.Log
import AliasHoist.Decimal.Shortest
import AliasHoist.Decimal.Text
import AliasHoist.Decode.Error
import AliasHoist.Diff.Compact
import AliasHoist.Diff.Lines
import AliasHoist.Diff.Myers
import AliasHoist.Diff.Script
import AliasHoist.Diff.Unified
import AliasHoist.Digest.Blake3
import AliasHoist.Editor
import AliasHoist.FileSystem.Access
import AliasHoist.FileSystem.Basic
import AliasHoist.Glob.Match
import AliasHoist.Glob.Pattern
import AliasHoist.Glob.Search
import AliasHoist.Json.Decode
import AliasHoist.Json.Print
import AliasHoist.Json.Read
import AliasHoist.Json.Token
import AliasHoist.Json.Value
import AliasHoist.Main
import AliasHoist.Naming.Alias
import AliasHoist.Naming.Identifier
import AliasHoist.Naming.Scope
import AliasHoist.Path
import AliasHoist.Proofs.Command.Backups
import AliasHoist.Proofs.Command.Collecting
import AliasHoist.Proofs.Command.Fixing
import AliasHoist.Proofs.Command.Locking
import AliasHoist.Proofs.Command.Recording
import AliasHoist.Proofs.Command.Repeating
import AliasHoist.Proofs.Command.Reporting
import AliasHoist.Proofs.Command.Rewriting
import AliasHoist.Proofs.Command.Trying
import AliasHoist.Proofs.Command.Undoing
import AliasHoist.Proofs.Diff.Accounting
import AliasHoist.Proofs.Diff.Chunking
import AliasHoist.Proofs.Diff.Compacting
import AliasHoist.Proofs.Diff.Scripts
import AliasHoist.Proofs.Editor.Runs
import AliasHoist.Proofs.Editor.Session
import AliasHoist.Proofs.FileSystem.Agreeing
import AliasHoist.Proofs.FileSystem.Changes
import AliasHoist.Proofs.FileSystem.Locating
import AliasHoist.Proofs.FileSystem.Removing
import AliasHoist.Proofs.Json.Bounds
import AliasHoist.Proofs.Json.RoundTrip
import AliasHoist.Proofs.Naming.Capitals
import AliasHoist.Proofs.Naming.Casing
import AliasHoist.Proofs.Naming.Claiming
import AliasHoist.Proofs.Naming.Freshness
import AliasHoist.Proofs.Naming.Hygiene
import AliasHoist.Proofs.Naming.Identifiers
import AliasHoist.Proofs.Naming.Raising
import AliasHoist.Proofs.Path.Order
import AliasHoist.Proofs.Rewrite.Application
import AliasHoist.Proofs.Rewrite.Inverse
import AliasHoist.Proofs.Rewrite.Order
import AliasHoist.Proofs.Rewrite.Output
import AliasHoist.Proofs.Rewrite.Refusal
import AliasHoist.Proofs.Rewrite.Selection
import AliasHoist.Proofs.Rule.Anchoring
import AliasHoist.Proofs.Rule.Capturing
import AliasHoist.Proofs.Rule.Definitions
import AliasHoist.Proofs.Rule.Detection
import AliasHoist.Proofs.Rule.Hoisting
import AliasHoist.Proofs.Rule.Passes
import AliasHoist.Proofs.Rule.Scoping
import AliasHoist.Proofs.Runs.Aging
import AliasHoist.Proofs.Runs.Cleaning
import AliasHoist.Proofs.Runs.Decoding
import AliasHoist.Proofs.Runs.Failing
import AliasHoist.Proofs.Runs.Filing
import AliasHoist.Proofs.Runs.Forgetting
import AliasHoist.Proofs.Runs.InStep
import AliasHoist.Proofs.Runs.Names
import AliasHoist.Proofs.Runs.Outlasting
import AliasHoist.Proofs.Runs.Recalling
import AliasHoist.Proofs.Runs.Recovering
import AliasHoist.Proofs.Runs.Resetting
import AliasHoist.Proofs.Runs.Restoring
import AliasHoist.Proofs.Runs.Reverting
import AliasHoist.Proofs.Runs.RoundTrip
import AliasHoist.Proofs.Runs.Sparing
import AliasHoist.Proofs.Runs.Storing
import AliasHoist.Proofs.Runs.Tidying
import AliasHoist.Proofs.Text.Bytes
import AliasHoist.Proofs.Text.Digits
import AliasHoist.Proofs.Time.Reaching
import AliasHoist.Proofs.Time.RoundTrip
import AliasHoist.Proofs.Tree.Lowering
import AliasHoist.Proofs.Tree.Navigation
import AliasHoist.Proofs.Tree.Nesting
import AliasHoist.Proofs.Tree.Preorder
import AliasHoist.Proofs.Tree.Pruning
import AliasHoist.Proofs.World.Comparing
import AliasHoist.Proofs.World.Tasks
import AliasHoist.Rewrite.Apply
import AliasHoist.Rewrite.Edit
import AliasHoist.Rewrite.Fix
import AliasHoist.Rule.Anchor
import AliasHoist.Rule.Capture
import AliasHoist.Rule.Finding
import AliasHoist.Rule.Lint
import AliasHoist.Rule.Report
import AliasHoist.Rule.Trace
import AliasHoist.Runs.Clean
import AliasHoist.Runs.Error
import AliasHoist.Runs.History
import AliasHoist.Runs.Index
import AliasHoist.Runs.Revert
import AliasHoist.Runs.Run
import AliasHoist.Runs.Store
import AliasHoist.Text.Alphabetic
import AliasHoist.Text.Blank
import AliasHoist.Text.CodePoints
import AliasHoist.Text.Digits
import AliasHoist.Text.Hex
import AliasHoist.Text.Numeric
import AliasHoist.Text.Printable
import AliasHoist.Text.Quoted
import AliasHoist.Text.Search
import AliasHoist.Text.Uppercase
import AliasHoist.Text.Utf8
import AliasHoist.Time.Calendar
import AliasHoist.Time.Parse
import AliasHoist.Time.Timestamp
import AliasHoist.Toml.Decode
import AliasHoist.Toml.Document
import AliasHoist.Toml.Scalar
import AliasHoist.Toml.Value
import AliasHoist.Tree.Basic
import AliasHoist.Tree.Forest
import AliasHoist.Tree.Kind
import AliasHoist.Tree.Lower
import AliasHoist.Tree.Raw
import AliasHoist.Tree.Span
import AliasHoist.Tree.Table
import AliasHoist.World
