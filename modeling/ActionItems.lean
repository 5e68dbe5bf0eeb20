import ActionItems.Number.Integer
import ActionItems.Text.Case
import ActionItems.Text.Word
import ActionItems.Number.Shortest
import ActionItems.Number.Reading
import ActionItems.Calendar
import ActionItems.Value
import ActionItems.Json.Reader
import ActionItems.Glob
import ActionItems.Diff.AddedLines
import ActionItems.Comment.Scan
import ActionItems.Report.Grouping
import ActionItems.Report.Links
import ActionItems.Analysis
import ActionItems.Yaml.ScalarText
import ActionItems.Yaml.Property
import ActionItems.Yaml.TokenStream
import ActionItems.Yaml.Graph
import ActionItems.Yaml.Document
import ActionItems.Options.File
import ActionItems.Digest.Hmac
import ActionItems.Json.Bytes
import ActionItems.Webhook.Signature
import ActionItems.Webhook.Route
import ActionItems.GitHub.Task
import ActionItems.CheckRun
import ActionItems.Settings.Reading
import ActionItems.Settings.Validity
import ActionItems.Settings.Update
import ActionItems.Server.Handler
import ActionItems.Proofs.Diff.Written
import ActionItems.Proofs.Keyed
import ActionItems.Proofs.Number.Decimal
import ActionItems.Proofs.Diff.Reading
import ActionItems.Proofs.Diff.RoundTrip
import ActionItems.Proofs.Diff.Files
import ActionItems.Proofs.Diff.Replacement
import ActionItems.Proofs.GitHub.Trace
import ActionItems.Proofs.CheckRun.Findings
import ActionItems.Proofs.CheckRun.Phases
import ActionItems.Proofs.CheckRun.Protocol
import ActionItems.Proofs.CheckRun.Completion
import ActionItems.Proofs.CheckRun.Accepted
import ActionItems.Value.Equality
import ActionItems.Proofs.CheckRun.Answered
import ActionItems.Proofs.CheckRun.Repeated
import ActionItems.Proofs.Comment.Blocks
import ActionItems.Proofs.Except
import ActionItems.Proofs.Report.Ranges
import ActionItems.Proofs.Report.Coverage
import ActionItems.Proofs.Report.Partition
import ActionItems.Proofs.CheckRun.Host
import ActionItems.Proofs.CheckRun.OneComment
import ActionItems.Proofs.Server.Admission
import ActionItems.Proofs.Diff.HunkHeader
import ActionItems.Proofs.Diff.Coherence
import ActionItems.Proofs.Diff.Joined
import ActionItems.Proofs.Options.Acceptance
import ActionItems.Proofs.Options.Usability
import ActionItems.Proofs.Options.Loading
import ActionItems.Proofs.Analysis.Stages
import ActionItems.Proofs.Analysis.Sections
import ActionItems.Proofs.Pattern.Bounds
import ActionItems.Proofs.Pattern.Escape
import ActionItems.Proofs.Pattern.Set
import ActionItems.Proofs.Pattern.Reading
import ActionItems.Proofs.Pattern.Refusal
import ActionItems.Proofs.Glob
import ActionItems.Proofs.Stateful
import ActionItems.Proofs.Yaml.Merging
import ActionItems.Proofs.Yaml.Building
import ActionItems.Proofs.Yaml.Scanning
import ActionItems.Proofs.Diff.Ignored
import ActionItems.Proofs.Diff.Recorded
import ActionItems.Proofs.Glob.Meaning
import ActionItems.Proofs.CheckRun.Concurrent
import ActionItems.Proofs.Keyword.Alone
import ActionItems.Proofs.Comment.Monotone
import ActionItems.Proofs.Comment.Languages
import ActionItems.Proofs.GitHub.Operation
import ActionItems.Proofs.GitHub.Limit
import ActionItems.Proofs.GitHub.Reply
import ActionItems.Proofs.GitHub.Refusal
import ActionItems.Proofs.GitHub.Pages
import ActionItems.Proofs.Webhook.Event
import ActionItems.Proofs.Webhook.Route
import ActionItems.Proofs.Webhook.Signature
import ActionItems.Proofs.Server.Signed
import ActionItems.Proofs.Number.Floating
import ActionItems.Proofs.Json.Numeral
import ActionItems.Proofs.Json.Grammar
import ActionItems.Proofs.Json.Step
import ActionItems.Proofs.Json.Reading
import ActionItems.Proofs.Server.Body
import ActionItems.Proofs.Pattern.Whole
import ActionItems.Proofs.Webhook.Names
import ActionItems.Proofs.Options.Globs
import ActionItems.Proofs.Number.Written
import ActionItems.Proofs.Report.Links
import ActionItems.Proofs.Report.Body
import ActionItems.Proofs.Settings.Fields
import ActionItems.Proofs.Settings.Change
import ActionItems.Proofs.Settings.Update
