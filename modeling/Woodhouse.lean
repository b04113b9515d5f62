import Woodhouse.Effects.Prog
import Woodhouse.Effects.Interleaving
import Woodhouse.Gateway.Models
import Woodhouse.Gateway.Store
import Woodhouse.Gateway.Onboarding
import Woodhouse.Gateway.Requests
import Woodhouse.Gateway.Connection
import Woodhouse.Gateway.Rotation
import Woodhouse.Gateway.Issuance
import Woodhouse.Gateway.TokenVersions
import Woodhouse.Gateway.Lockout
import Woodhouse.Certificates.Renewer
import Woodhouse.Certificates.Versions
import Woodhouse.Certificates.Pruning
import Woodhouse.Sql.Logic
import Woodhouse.Sql.Window
import Woodhouse.Sql.Order
import Woodhouse.Sql.Islands
import Woodhouse.Sql.Join
import Woodhouse.Charging.Sessions
import Woodhouse.Charging.Scan
import Woodhouse.Charging.Refinement
import Woodhouse.Charging.Reports
import Woodhouse.Charging.Ties
import Woodhouse.Intervals.Tiling
import Woodhouse.Fsd.Segments
import Woodhouse.Fsd.Points
import Woodhouse.Fsd.Rows
import Woodhouse.Fsd.Attribution
import Woodhouse.Fsd.Buckets
import Woodhouse.Fsd.Reconciliation
import Woodhouse.Python.Text
import Woodhouse.Python.Codecs
import Woodhouse.Python.Numbers
import Woodhouse.Python.Json
import Woodhouse.Python.Base64
import Woodhouse.Python.DateTime
import Woodhouse.Python.Dumps
import Woodhouse.Ingest.Messages
import Woodhouse.Ingest.Decoder
import Woodhouse.Ingest.Services
import Woodhouse.Ingest.Processor
import Woodhouse.Ingest.Reading
import Woodhouse.Ingest.Poison
import Woodhouse.Ingest.Appends
import Woodhouse.Ingest.Routing
import Woodhouse.Ingest.Observations
import Woodhouse.Drives.Gears
import Woodhouse.Drives.Boundaries
import Woodhouse.Drives.Intervals
import Woodhouse.Drives.Refinement
import Woodhouse.Ingest.Deliveries
import Woodhouse.Gateway.Discovery
import Woodhouse.Gateway.Reauthorization
import Woodhouse.Gateway.Transactions
import Woodhouse.Gateway.Authorizations
import Woodhouse.Gateway.TelemetryState
import Woodhouse.Gateway.Ownership
import Woodhouse.Gateway.VinRoutes
import Woodhouse.Gateway.VehicleSync
import Woodhouse.Identity.Store
import Woodhouse.Identity.Bindings
import Woodhouse.Identity.Permanence
import Woodhouse.Browser.Service
import Woodhouse.Browser.Requests
import Woodhouse.Browser.Steps
import Woodhouse.Browser.Sessions
import Woodhouse.Browser.Guarantees
import Woodhouse.Commands.Tools
import Woodhouse.Commands.Fleet
import Woodhouse.Commands.Service
import Woodhouse.Commands.Exchanges
import Woodhouse.Commands.Audits
import Woodhouse.Commands.Wakes
import Woodhouse.Commands.AuditedCalls
import Woodhouse.Commands.AtMostOnce
import Woodhouse.Python.Dicts
import Woodhouse.Telemetry.Profiles
import Woodhouse.Telemetry.Documents
import Woodhouse.Telemetry.Partition
import Woodhouse.Telemetry.Configurations
import Woodhouse.Telemetry.RoundTrip
import Woodhouse.Telemetry.Service
import Woodhouse.Effects.Allocation
import Woodhouse.Telemetry.Changes
import Woodhouse.Telemetry.Confirmations
import Woodhouse.Telemetry.Operations
import Woodhouse.Telemetry.Courses
import Woodhouse.Telemetry.Segments
import Woodhouse.Telemetry.Reconciliations
import Woodhouse.Telemetry.Cutover
import Woodhouse.Effects.Answers
import Woodhouse.Telemetry.Audits
import Woodhouse.Telemetry.Isolation
import Woodhouse.Telemetry.Provenance
import Woodhouse.Certificates.Gate
import Woodhouse.Ingest.Acknowledgement
import Woodhouse.Certificates.Survival
import Woodhouse.Certificates.Convergence
import Woodhouse.Fsd.Partition
import Woodhouse.Effects.Transcripts
import Woodhouse.Effects.Endings
import Woodhouse.Identity.Memory
import Woodhouse.Identity.Correspondence
import Woodhouse.BigQuery.Client
import Woodhouse.BigQuery.Views
import Woodhouse.BigQuery.Promotion
import Woodhouse.BigQuery.Reconciliation
import Woodhouse.BigQuery.Access
import Woodhouse.Sql.Timestamps
import Woodhouse.Sql.Aggregates
import Woodhouse.Intervals.Steps
import Woodhouse.Charging.Energy
import Woodhouse.Charging.Tails
import Woodhouse.Charging.Integral
import Woodhouse.Charging.Resets
import Woodhouse.Charging.Provenance
import Woodhouse.Charging.Bounds
import Woodhouse.Drives.Routes
import Woodhouse.Drives.Paths
import Woodhouse.Identity.CallerClaims
import Woodhouse.Python.Ascii
import Woodhouse.Python.Base64Encoding
import Woodhouse.Python.DumpsUtf8
import Woodhouse.Analytics.Results
import Woodhouse.Effects.Process
import Woodhouse.Http.Boundary
import Woodhouse.Http.Replay
import Woodhouse.Http.AccessLog
import Woodhouse.Worklist.Search
import Woodhouse.Commands.VehiclePages
import Woodhouse.Paths.DotSegments
import Woodhouse.Paths.Quoting
import Woodhouse.Paths.Resources
import Woodhouse.Python.DictPatches
import Woodhouse.Python.Equality
import Woodhouse.Codes.Concatenation
import Woodhouse.Telemetry.Differences
import Woodhouse.Telemetry.Includes
import Woodhouse.Media.History
import Woodhouse.Python.ReadBack
import Woodhouse.Media.Runs
import Woodhouse.Python.Markers
import Woodhouse.Telemetry.ErrorSummaries
import Woodhouse.Python.IsoFormat
import Woodhouse.Python.Nesting
import Woodhouse.Python.Utf8
import Woodhouse.Tokens.Cipher
import Woodhouse.Tokens.Guarantees
import Woodhouse.Transport.Queries
import Woodhouse.Transport.Calls
import Woodhouse.Transport.Routes
import Woodhouse.Transport.CommandProxy
import Woodhouse.Python.DumpsReadBack
import Woodhouse.Ingest.Fixtures
import Woodhouse.Ingest.RetryGate
import Woodhouse.Summaries.Daily
import Woodhouse.Fsd.PathStates
import Woodhouse.Commands.AuditRedaction
import Woodhouse.Summaries.Drives
import Woodhouse.Python.JsonParts
import Woodhouse.Python.NumberTexts
import Woodhouse.Python.Floats
import Woodhouse.Python.FloatTexts
import Woodhouse.Python.LoadedValues
import Woodhouse.Python.JsonGrammar
import Woodhouse.Python.DumpsGrammar
import Woodhouse.Python.DumpsRoundTrip
import Woodhouse.Ingest.StoredPayloads
import Woodhouse.Python.Redaction
import Woodhouse.Transport.DiagnosticPatterns
import Woodhouse.Transport.Diagnostics
import Woodhouse.Transport.RequestSecrets
