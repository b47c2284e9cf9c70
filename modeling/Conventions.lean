import Conventions.Number.Shortest
import Conventions.Text.Word
import Conventions.Text.Printable
import Conventions.Text.Lower
import Conventions.Files.Digest
import Conventions.Files.Glob
import Conventions.Text.Blank
import Conventions.Text.Utf8
import Conventions.Json.Reader
import Conventions.Json.Writer
import Conventions.Syntax.Walk
import Conventions.Syntax.Call
import Conventions.Vocabulary
import Conventions.Evidence
import Conventions.Text.Pattern
import Conventions.Redaction
import Conventions.Extraction
import Conventions.Evidence.Document
import Conventions.Files.Path
import Conventions.Verdict.Document
import Conventions.Schema.Contracts
import Conventions.Schema.Examples
import Conventions.Accuracy.Document
import Conventions.Scan.Options
import Conventions.Audit.Log
import Conventions.Files.Selection
import Conventions.Toml.Reader
import Conventions.Xml.Reader
import Conventions.Project.Metadata
import Conventions.Cache.Calls
import Conventions.Cache.Store
import Conventions.Audit.Event
import Conventions.Scan.Run
import Conventions.Service
import Conventions.Accuracy.Evaluation
import Conventions.CommandLine.Commands
import Conventions.Proofs.Sequence
import Conventions.Proofs.Fallible
import Conventions.Proofs.Catalogue.Handlers
import Conventions.Proofs.Catalogue.Dispatch
import Conventions.Proofs.Cache.Entries
import Conventions.Proofs.Cache.Trace
import Conventions.Proofs.Cache.Consistency
import Conventions.Proofs.Cache.SingleFlight
import Conventions.Proofs.Cache.Solo
import Conventions.Proofs.Text.Utf8
import Conventions.Proofs.Syntax.Without
import Conventions.Proofs.Syntax.Comments
import Conventions.Proofs.Syntax.Reading
import Conventions.Proofs.Syntax.Objects
import Conventions.Proofs.Syntax.Visits
import Conventions.Proofs.Catalogue.PastComments.Authentication
import Conventions.Proofs.Catalogue.PastComments.Responses
import Conventions.Proofs.Catalogue.PastComments.Errors
import Conventions.Proofs.Catalogue.Comments
import Conventions.Proofs.Catalogue.FirstComments
import Conventions.Proofs.Files.Path
import Conventions.Proofs.Number.Rounding
import Conventions.Proofs.Number.Shortest
import Conventions.Proofs.Number.Monotone
import Conventions.Scan.Shared
import Conventions.Proofs.Json.Numbers
import Conventions.Proofs.Json.RoundTrip
import Conventions.Proofs.Cache.Store
import Conventions.Proofs.Cache.Record
import Conventions.Proofs.Cache.Load
import Conventions.Proofs.Cache.Keyed
import Conventions.Proofs.Cache.Restart
import Conventions.Proofs.Scan.Extractor
import Conventions.Proofs.Files.Selection
import Conventions.Proofs.Scan.Coverage
import Conventions.Proofs.Scan.Fresh
import Conventions.Proofs.Scan.Shared
import Conventions.Proofs.Files.Write
import Conventions.Proofs.Scan.Transparency
import Conventions.Proofs.Verdict.Ranking
import Conventions.Proofs.Verdict.Policy
import Conventions.Proofs.Verdict.Account
import Conventions.Proofs.Verdict.Confidence
import Conventions.Proofs.Verdict.Independence
import Conventions.Proofs.Verdict.Labels
import Conventions.Proofs.Verdict.Recency
import Conventions.Proofs.Verdict.Corroboration
import Conventions.Proofs.Verdict.Inert
import Conventions.Proofs.Verdict.Retimed
import Conventions.Proofs.Syntax.Sight
import Conventions.Proofs.Catalogue.Sight
import Conventions.Proofs.Text.Pattern
import Conventions.Proofs.Text.Blank
import Conventions.Proofs.Text.Locality
import Conventions.Proofs.Text.Rewriting
import Conventions.Proofs.Redaction.Secrets
import Conventions.Proofs.Redaction.Excerpts
import Conventions.Proofs.Redaction.Masking
import Conventions.Proofs.Redaction.Settled
import Conventions.Proofs.Redaction.Public
import Conventions.Proofs.Project.Manifest
import Conventions.Proofs.Scan.Faults
import Conventions.Proofs.Json.Members
import Conventions.Proofs.Schema.Meets
import Conventions.Proofs.Schema.Requests
import Conventions.Proofs.Scan.Context
import Conventions.Proofs.Scan.Stopped
import Conventions.Proofs.Scan.Accounting
import Conventions.Proofs.Scan.Ran
import Conventions.Proofs.Scan.Alone
import Conventions.Proofs.Files.Below
import Conventions.Proofs.Scan.Eviction
import Conventions.Proofs.Scan.Reuse
import Conventions.Proofs.Accuracy.Judged
import Conventions.Proofs.Accuracy.Account
import Conventions.Proofs.Service.Answers
import Conventions.Proofs.Scan.Genuine
import Conventions.Proofs.Verdict.Told
import Conventions.Proofs.Schema.Responses
import Conventions.Proofs.Service.Responses
import Conventions.Proofs.Vocabulary
import Conventions.Proofs.Schema.Corpus
import Conventions.Proofs.Accuracy.Corpus
import Conventions.Proofs.Accuracy.Expectations
import Conventions.Proofs.Xml.Encoding
import Conventions.Proofs.Project.Defeat
import Conventions.Proofs.Json.Sorted
import Conventions.Proofs.Files.Home
import Conventions.Proofs.Audit.Tail
import Conventions.Proofs.Number.Ratio
import Conventions.Proofs.Accuracy.Told
import Conventions.Proofs.Accuracy.Order
import Conventions.Proofs.Accuracy.Steady
import Conventions.Proofs.Catalogue.OwnStatements
import Conventions.Proofs.Catalogue.Exclusion
import Conventions.Proofs.Files.Listing
import Conventions.Proofs.Files.Rule
import Conventions.Proofs.Catalogue.Payloads
import Conventions.Proofs.Catalogue.Statements
import Conventions.Proofs.Redaction.Paths
import Conventions.Proofs.Redaction.Bounds
import Conventions.Proofs.Accuracy.Plans
import Conventions.Proofs.Accuracy.Named
import Conventions.Proofs.Accuracy.Recommendations
import Conventions.Proofs.Accuracy.Loading
import Conventions.Proofs.Syntax.Order
import Conventions.Proofs.Cache.Bookkeeping
import Conventions.Proofs.Text.Word
import Conventions.Proofs.Number.Numerals
import Conventions.Proofs.Number.Overflow
import Conventions.Proofs.Scan.Options
import Conventions.Proofs.Syntax.MemberPath
