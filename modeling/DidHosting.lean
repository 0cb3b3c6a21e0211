import DidHosting.Support.Text
import DidHosting.Support.Table
import DidHosting.Support.Scan
import DidHosting.Support.Prog
import DidHosting.Support.Run
import DidHosting.Support.Interleaving
import DidHosting.Support.Serial
import DidHosting.Support.Wp
import DidHosting.Common.Json
import DidHosting.Common.Libs
import DidHosting.Common.Method
import DidHosting.Common.Mnemonic
import DidHosting.Common.Replay
import DidHosting.Common.DidLog
import DidHosting.Common.Chain
import DidHosting.Common.Reference
import DidHosting.Common.Servable
import DidHosting.Common.Publication
import DidHosting.Common.Store
import DidHosting.Common.Domain
import DidHosting.Common.DomainStore
import DidHosting.Common.DomainWire
import DidHosting.Control.State
import DidHosting.Control.Names
import DidHosting.Control.Publish
import DidHosting.Control.Lifecycle
import DidHosting.Control.Run
import DidHosting.Control.Accept
import DidHosting.Control.Reference
import DidHosting.Control.Effects
import DidHosting.Edge.Sync
import DidHosting.Edge.Domains
import DidHosting.Edge.DomainSpec
import DidHosting.Edge.History
import DidHosting.Edge.PendingPurges
import DidHosting.Edge.Changes
import DidHosting.Edge.Reference
import DidHosting.Edge.NameIndex
import DidHosting.Edge.Reconcile
import DidHosting.Edge.Sweep
import DidHosting.Edge.AppendOnly
import DidHosting.Replication.Directives
import DidHosting.Control.ServerPush
import DidHosting.Control.VersionCount
import DidHosting.Control.Address
import DidHosting.Control.NameIndex
import DidHosting.Control.NameClaims
import DidHosting.Control.NameExclusion
import DidHosting.Control.Linear
import DidHosting.Control.Outbox
import DidHosting.Control.OutboxRows
import DidHosting.Control.OutboxTargets
import DidHosting.Support.Fifo
import DidHosting.Control.OutboxOrder
import DidHosting.Replication.Intents
import DidHosting.Replication.DomainUpserts
import DidHosting.Witness.Log
import DidHosting.Witness.Sign
import DidHosting.Witness.Delete
import DidHosting.Control.Operable
import DidHosting.Common.TrustTask
import DidHosting.Control.Gate
import DidHosting.Watcher.Mirror
import DidHosting.Watcher.Sources
import DidHosting.Support.Atomic
import DidHosting.Oob.Store
import DidHosting.Oob.Service
import DidHosting.Oob.History
import DidHosting.Oob.OneGuess
import DidHosting.Oob.SignIn
import DidHosting.Support.Alone
import DidHosting.Support.Part
import DidHosting.Support.Replace
import DidHosting.Support.Confined
import DidHosting.Auth.Invite
import DidHosting.Auth.Lockout
import DidHosting.Auth.Session
import DidHosting.Auth.Lockstep
import DidHosting.Auth.Credential
import DidHosting.Auth.Store
import DidHosting.Auth.Tasks
import DidHosting.Auth.Enrol
import DidHosting.Auth.Refresh
import DidHosting.Auth.Plane
import DidHosting.Auth.CredentialRows
import DidHosting.Auth.Accesses
import DidHosting.Auth.Credentials
import DidHosting.Support.Base64
import DidHosting.Support.Glob
import DidHosting.Store.Backends
import DidHosting.Store.PrefixScan
import DidHosting.Store.Batch
import DidHosting.Store.Embedded
import DidHosting.Support.HashChain
import DidHosting.Common.KeyEvents
import DidHosting.Edge.WebsHistory
import DidHosting.Control.WebsHistory
import DidHosting.Acl.Tasks
import DidHosting.Acl.Changes
import DidHosting.Acl.LastAdmin
import DidHosting.Acl.Scopes
import DidHosting.Support.Cycles
import DidHosting.Control.Registry
import DidHosting.Control.RegistryOrder
import DidHosting.Control.RegistryUpdates
import DidHosting.Identity.Generation
import DidHosting.Identity.Service
import DidHosting.Identity.Ends
import DidHosting.Identity.CurrentKeys
import DidHosting.Identity.StoredGenerations
import DidHosting.Identity.Grace
import DidHosting.Support.Deadlines
import DidHosting.Auth.PendingChallenges
import DidHosting.Auth.PendingList
import DidHosting.Auth.PendingLedger
import DidHosting.Auth.PendingBound
import DidHosting.Common.ServedPrefix
import DidHosting.Common.PublishWitness
import DidHosting.Witness.Accepts
import DidHosting.Edge.PurgeFaults
import DidHosting.Edge.SweepFaults
import DidHosting.Stats.Collector
import DidHosting.Stats.Sync
import DidHosting.Stats.ExactlyOnce
import DidHosting.Control.PairedWrites
import DidHosting.Control.CleanupRace
import DidHosting.Control.HeldNames
import DidHosting.Common.JsonText
import DidHosting.Common.WebDocument
import DidHosting.Common.LogReaders
import DidHosting.Replication.PurgeTimes
import DidHosting.Support.AsciiCase
import DidHosting.Edge.HostSpelling
import DidHosting.Support.Batches
import DidHosting.Control.Resync
import DidHosting.Control.WatcherPush
import DidHosting.Control.WitnessFile
import DidHosting.Control.RollbackPrefix
import DidHosting.Support.Faults
import DidHosting.Control.FailedCreate
import DidHosting.Support.Paging
import DidHosting.Control.OwnerIndex
import DidHosting.Control.Listing
import DidHosting.Common.ClientIp
import DidHosting.Support.RowWrites
import DidHosting.Common.DomainTags
import DidHosting.Edge.Backup
import DidHosting.Acl.Grants
import DidHosting.Support.CursorPaging
import DidHosting.Acl.Listing
import DidHosting.Support.Separators
import DidHosting.Edge.Binding
import DidHosting.Stats.Flush
import DidHosting.Stats.Conservation
import DidHosting.Edge.Bootstrap
import DidHosting.Edge.Resolve
import DidHosting.Edge.WebBridge
import DidHosting.Identity.RotateDocument
import DidHosting.Identity.RotateKeys
import DidHosting.Identity.RotationFaults
import DidHosting.Control.RecordedErrors
import DidHosting.Common.LargeDocuments
import DidHosting.Common.LargeDocumentRefusals
import DidHosting.Auth.RefreshCeiling
import DidHosting.Auth.StepUpChallenges
import DidHosting.Support.Totals
import DidHosting.Control.Quotas
import DidHosting.Support.Within
import DidHosting.Control.Isolation
import DidHosting.Support.TtlCache
import DidHosting.Edge.Public
import DidHosting.Edge.PublicAlone
import DidHosting.Edge.Committed
import DidHosting.Edge.PublicHistory
import DidHosting.Edge.ServedLogs
import DidHosting.Edge.CacheCoherence
