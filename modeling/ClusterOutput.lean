import ClusterOutput.Answer.Acknowledgement
import ClusterOutput.Answer.Search
import ClusterOutput.Cli.Arguments
import ClusterOutput.Cli.Command
import ClusterOutput.Cli.Failure
import ClusterOutput.Cli.Program
import ClusterOutput.Client.Basic
import ClusterOutput.Client.Dispatch
import ClusterOutput.Client.Documents
import ClusterOutput.Client.Options
import ClusterOutput.Config.Dotenv
import ClusterOutput.Config.Error
import ClusterOutput.Config.File
import ClusterOutput.Config.Loader
import ClusterOutput.Config.Settings
import ClusterOutput.Credentials
import ClusterOutput.Duration
import ClusterOutput.Files.Path
import ClusterOutput.Files.Tree
import ClusterOutput.Http.Exchange
import ClusterOutput.Http.Message
import ClusterOutput.Http.Transport
import ClusterOutput.Json.Basic
import ClusterOutput.Json.Fault
import ClusterOutput.Json.Lexeme
import ClusterOutput.Json.Read
import ClusterOutput.Json.Record
import ClusterOutput.Json.Skip
import ClusterOutput.Json.Write
import ClusterOutput.Main
import ClusterOutput.Number.Binary64
import ClusterOutput.Number.Shortest
import ClusterOutput.Observation.Event
import ClusterOutput.Observation.Log
import ClusterOutput.Observation.Sample
import ClusterOutput.Pool.Basic
import ClusterOutput.Proofs.Answer.AnyOrder
import ClusterOutput.Proofs.Answer.Lenient
import ClusterOutput.Proofs.Answer.Reencoding
import ClusterOutput.Proofs.Cli.Causes
import ClusterOutput.Proofs.Cli.ExitCode
import ClusterOutput.Proofs.Cli.Replies
import ClusterOutput.Proofs.Cli.Resending
import ClusterOutput.Proofs.Cli.Secrecy
import ClusterOutput.Proofs.Cli.Shipping
import ClusterOutput.Proofs.Client.Account
import ClusterOutput.Proofs.Client.Alike
import ClusterOutput.Proofs.Client.Attempt
import ClusterOutput.Proofs.Client.Building
import ClusterOutput.Proofs.Client.Calm
import ClusterOutput.Proofs.Client.Cancellation
import ClusterOutput.Proofs.Client.Course
import ClusterOutput.Proofs.Client.Ending
import ClusterOutput.Proofs.Client.Endpoint
import ClusterOutput.Proofs.Client.Interleaving
import ClusterOutput.Proofs.Client.Lockstep
import ClusterOutput.Proofs.Client.Marks
import ClusterOutput.Proofs.Client.Measured
import ClusterOutput.Proofs.Client.Naming
import ClusterOutput.Proofs.Client.Nodes
import ClusterOutput.Proofs.Client.Observers
import ClusterOutput.Proofs.Client.Parameters
import ClusterOutput.Proofs.Client.Reconfiguration
import ClusterOutput.Proofs.Client.Sending
import ClusterOutput.Proofs.Client.Series
import ClusterOutput.Proofs.Client.Settle
import ClusterOutput.Proofs.Client.Settling
import ClusterOutput.Proofs.Client.Silence
import ClusterOutput.Proofs.Client.Steps
import ClusterOutput.Proofs.Client.Tally
import ClusterOutput.Proofs.Client.Transcript
import ClusterOutput.Proofs.Client.Transitions
import ClusterOutput.Proofs.Client.Turns
import ClusterOutput.Proofs.Client.Validation
import ClusterOutput.Proofs.Config.Bounds
import ClusterOutput.Proofs.Config.Concealed
import ClusterOutput.Proofs.Config.HostList
import ClusterOutput.Proofs.Config.Layers
import ClusterOutput.Proofs.Config.NamedFile
import ClusterOutput.Proofs.Config.Rereading
import ClusterOutput.Proofs.Http.Anonymous
import ClusterOutput.Proofs.Journal
import ClusterOutput.Proofs.Json.Collections
import ClusterOutput.Proofs.Json.Grammar
import ClusterOutput.Proofs.Json.Layouts
import ClusterOutput.Proofs.Json.Locality
import ClusterOutput.Proofs.Json.Objects
import ClusterOutput.Proofs.Json.Order
import ClusterOutput.Proofs.Json.Readers
import ClusterOutput.Proofs.Json.Reading
import ClusterOutput.Proofs.Json.Records
import ClusterOutput.Proofs.Json.Rereading
import ClusterOutput.Proofs.Json.Scalars
import ClusterOutput.Proofs.Json.Skipping
import ClusterOutput.Proofs.Json.Spelling
import ClusterOutput.Proofs.Json.Values
import ClusterOutput.Proofs.Json.Words
import ClusterOutput.Proofs.Pool.Calls
import ClusterOutput.Proofs.Pool.Concealed
import ClusterOutput.Proofs.Pool.Failover
import ClusterOutput.Proofs.Pool.Health
import ClusterOutput.Proofs.Pool.History
import ClusterOutput.Proofs.Pool.Invariant
import ClusterOutput.Proofs.Pool.Replacement
import ClusterOutput.Proofs.Pool.Replay
import ClusterOutput.Proofs.Pool.Representation
import ClusterOutput.Proofs.Pool.Rotation
import ClusterOutput.Proofs.Pool.RoundRobin
import ClusterOutput.Proofs.Pool.Selection
import ClusterOutput.Proofs.Pool.Settled
import ClusterOutput.Proofs.Pool.Transitions
import ClusterOutput.Proofs.Result
import ClusterOutput.Proofs.Text.Decimal
import ClusterOutput.Proofs.Text.Lines
import ClusterOutput.Proofs.Text.Pieces
import ClusterOutput.Proofs.Text.Trimming
import ClusterOutput.Proofs.Text.Utf8
import ClusterOutput.Proofs.Url.Authority
import ClusterOutput.Proofs.Url.DocumentPath
import ClusterOutput.Proofs.Url.Domain
import ClusterOutput.Proofs.Url.Entrance
import ClusterOutput.Proofs.Url.Extension
import ClusterOutput.Proofs.Url.Form
import ClusterOutput.Proofs.Url.Host
import ClusterOutput.Proofs.Url.Percent
import ClusterOutput.Proofs.Url.Plain
import ClusterOutput.Proofs.Url.Punycode
import ClusterOutput.Proofs.Url.Query
import ClusterOutput.Proofs.Url.Rereading
import ClusterOutput.Proofs.Url.Segments
import ClusterOutput.RequestError
import ClusterOutput.Session
import ClusterOutput.Surroundings
import ClusterOutput.Text.Base64
import ClusterOutput.Text.Blank
import ClusterOutput.Text.Decimal
import ClusterOutput.Text.Diagnostic
import ClusterOutput.Text.Lines
import ClusterOutput.Text.Quoted
import ClusterOutput.Text.Shown
import ClusterOutput.Text.Utf8
import ClusterOutput.Url.Basic
import ClusterOutput.Url.DocumentPath
import ClusterOutput.Url.Domain
import ClusterOutput.Url.Form
import ClusterOutput.Url.Host
import ClusterOutput.Url.Parse
import ClusterOutput.Url.Percent
import ClusterOutput.Url.Punycode
