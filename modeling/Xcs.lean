import Xcs.Js.Text
import Xcs.Js.Utf8
import Xcs.Js.Number
import Xcs.Js.Date
import Xcs.Js.Value
import Xcs.Errors
import Xcs.Run.Basic
import Xcs.Run.Program
import Xcs.Run.Fence
import Xcs.Run.LinkedLog
import Xcs.Run.Keyset
import Xcs.Run.KeyedStore
import Xcs.Run.Pool
import Xcs.Run.Rely
import Xcs.Run.Outcomes
import Xcs.Run.World
import Xcs.Run.Blocks
import Xcs.Run.FileTree
import Xcs.Run.InsertionMap
import Xcs.Run.Ranges
import Xcs.Run.Aggregates
import Xcs.Run.References
import Xcs.Json.Parse
import Xcs.Json.Render
import Xcs.Json.RoundTrip
import Xcs.Json.Integers
import Xcs.Json.Bytes
import Xcs.Json.Stringify
import Xcs.Js.IsoTime
import Xcs.Core.Platform
import Xcs.Core.Json
import Xcs.Core.WellFormed
import Xcs.Core.JsonEquality
import Xcs.Core.Schema
import Xcs.Core.SchemaForm
import Xcs.Core.SchemaGrammar
import Xcs.Core.SchemaResolution
import Xcs.Core.SchemaLineage
import Xcs.Core.ResolutionAgreement
import Xcs.Core.SchemaUid
import Xcs.Core.SchemaNormalForm
import Xcs.Core.Claims
import Xcs.Core.PayloadUri
import Xcs.Core.FetchUrl
import Xcs.Core.CredentialPayload
import Xcs.Core.PayloadRoundTrip
import Xcs.Core.ClaimValues
import Xcs.Core.Lifecycle
import Xcs.Db.Tables
import Xcs.Db.Fencing
import Xcs.Db.FencingRuns
import Xcs.Db.Projection
import Xcs.Sdk.Submission
import Xcs.Sdk.ReliableSubmission
import Xcs.Sdk.SubmissionRuns
import Xcs.Indexer.Types
import Xcs.Indexer.Registration
import Xcs.Indexer.CredentialMutations
import Xcs.Indexer.CredentialLifecycle
import Xcs.Indexer.ProjectLedger
import Xcs.Indexer.Repository
import Xcs.Indexer.RepositoryRuns
import Xcs.Indexer.QuorumLedgerSource
import Xcs.Indexer.Worker
import Xcs.Indexer.WorkerRuns
import Xcs.Indexer.RegistrationStorage
import Xcs.Indexer.RegistrationRuns
import Xcs.Indexer.ProjectionAgreement
import Xcs.Indexer.Uninterrupted
import Xcs.Indexer.InterleavedRuns
import Xcs.Indexer.SourceResponse
import Xcs.Indexer.ProfilePreflight
import Xcs.Indexer.LedgerResponse
import Xcs.Indexer.RegistryPreflight
import Xcs.Sdk.Network
import Xcs.Indexer.FixtureBundle
import Xcs.Indexer.FixtureFiles
import Xcs.Indexer.FixtureLayout
import Xcs.Indexer.FixturePublication
import Xcs.Sdk.Encoding
import Xcs.Sdk.TransactionValidation
import Xcs.Sdk.Builders
import Xcs.Sdk.MemoSize
import Xcs.Agreement.SchemaRegistration
import Xcs.Agreement.CredentialCreate
import Xcs.Web.SchemaProjection
import Xcs.Web.SchemaSoundness
import Xcs.Web.SchemaCatalog
import Xcs.Web.OperationJournal
import Xcs.Web.JournalRuns
import Xcs.Web.ValidatedResult
import Xcs.Web.BusinessEvidence
import Xcs.Web.PinningRepository
import Xcs.Web.Pinning
import Xcs.Web.PinRetention
import Xcs.Web.Readiness
import Xcs.Web.PayloadResolver
import Xcs.Web.Presenters
import Xcs.Web.Pagination
import Xcs.Web.Listings
import Xcs.Web.DiscoveryStats
import Xcs.Web.CredentialTimeline
import Xcs.Web.Verification
import Xcs.Web.RateLimit
import Xcs.Web.LocalPayloadStore
import Xcs.Web.LocalPayloadRecords
import Xcs.Web.LocalPayloadRuns
import Xcs.Agreement.ServedSchemas
import Xcs.Agreement.ProjectionTables
import Xcs.Agreement.ProjectionDigest
import Xcs.Agreement.CredentialRuns
import Xcs.Agreement.CredentialTimelines
import Xcs.Agreement.VerifiedCredentials
import Xcs.Agreement.LiveListings
