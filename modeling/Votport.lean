import Votport.Foundation.ClassMax
import Votport.Foundation.Claims
import Votport.Foundation.Fallible
import Votport.Foundation.HashChain
import Votport.Foundation.Json
import Votport.Foundation.Runs
import Votport.Foundation.Saturating
import Votport.Foundation.Table
import Votport.Foundation.Words
import Votport.Session.Registry
import Votport.Session.Guards
import Votport.Session.Admission
import Votport.Store.Files
import Votport.Store.Quota
import Votport.Store.QuotaFold
import Votport.Store.QuotaRun
import Votport.Store.Principals
import Votport.Store.Outbound
import Votport.Store.Downloads
import Votport.Store.FetchTickets
import Votport.Store.Uploads
import Votport.Store.UploadCommit
import Votport.Store.Evidence
import Votport.Store.EvidenceExport
import Votport.Store.Webhooks
import Votport.Store.WebhookQueue
import Votport.Store.WebhookRun
import Votport.Store.Audit
import Votport.Protocol.Routes
import Votport.Protocol.Custody
import Votport.Protocol.Statements
import Votport.Session.StoredPaths
import Votport.Session.Prepare
import Votport.Session.Rate
import Votport.Session.RateRuns
import Votport.Trade.Credential
import Votport.Trade.Rotation
import Votport.Trade.Invitations
import Votport.Trade.Lifecycle
import Votport.Delivery.Jobs
import Votport.Delivery.Tables
import Votport.Delivery.Work
import Votport.Delivery.Routes
import Votport.Delivery.Projects
import Votport.Delivery.World
import Votport.Delivery.Moves
import Votport.Delivery.Steps
import Votport.Delivery.Fencing
import Votport.Delivery.Budget
import Votport.Delivery.Submissions
import Votport.Delivery.Removal
import Votport.Delivery.Policy
import Votport.Delivery.Approval
import Votport.Delivery.PolicyCache
import Votport.Foundation.Segments
import Votport.Foundation.Fields
import Votport.Foundation.Leading
import Votport.Delivery.Directories
import Votport.Serving.Streams
import Votport.Serving.Places
import Votport.Serving.Cancellation
import Votport.Serving.Leases
import Votport.Serving.Counting
import Votport.Serving.Ranges
import Votport.Web.Download
import Votport.Web.Resumed
import Votport.Client.Locks
import Votport.Client.Claims
import Votport.Client.Exclusion
import Votport.Client.Port
import Votport.Client.PortMoves
import Votport.Client.PortSafety
import Votport.Client.Register
import Votport.Client.Retry
import Votport.Retention.Clock
import Votport.Storage.WriterLease
import Votport.Storage.OneWriter
import Votport.Storage.LeaseRuns
import Votport.Admin.Identity
import Votport.Admin.Logins
import Votport.Admin.Steps
import Votport.Admin.Eviction
import Votport.Admin.Evicted
import Votport.Admin.Fields
import Votport.Admin.FieldRequests
import Votport.Admin.Serial
import Votport.Admin.SerialRuns
import Votport.Auth.Tokens
import Votport.Auth.Subjects
import Votport.Auth.Selected
import Votport.Auth.Spellings
import Votport.Admin.Groups
import Votport.Admin.GroupOrder
import Votport.Foundation.Listings
import Votport.Protocol.Paths
import Votport.Protocol.Portable
import Votport.Foundation.Neighbours
import Votport.Protocol.Collisions
import Votport.Backup.Archive
import Votport.Backup.Extracted
import Votport.Backup.Restored
import Votport.Backup.Survey
import Votport.Backup.Surveyed
import Votport.Foundation.Newest
import Votport.Backup.Rotation
import Votport.Backup.Rotated
import Votport.Backup.Restore
import Votport.Egress.Addresses
import Votport.Egress.Guard
import Votport.External.Bucket
import Votport.External.Import
import Votport.External.Imported
import Votport.Library.RootCache
import Votport.Library.Transparent
import Votport.Library.Catalogs
import Votport.Library.Pruned
import Votport.Library.Hashing
import Votport.Foundation.Calendar
import Votport.Foundation.Padded
import Votport.Protocol.Timestamps
import Votport.Foundation.Framed
import Votport.Delivery.Manifests
import Votport.Protocol.Sweep
import Votport.Session.Suffixes
import Votport.Session.Parallel
import Votport.Store.SettingsCache
import Votport.Serving.Leaves
import Votport.Session.Pushes
import Votport.Foundation.Paging
import Votport.Foundation.Interrupted
import Votport.Library.Pages
import Votport.Library.Chunks
import Votport.Client.Uploads
import Votport.Foundation.TokenBucket
import Votport.Serving.DownloadRate
import Votport.Serving.DownloadBudget
import Votport.Foundation.Escapes
import Votport.Notify.Chat
