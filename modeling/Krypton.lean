import Krypton.Lib.Tx
import Krypton.Lib.Cleanup
import Krypton.Lib.Table
import Krypton.Lib.Keyed
import Krypton.Lib.Run
import Krypton.Lib.Processes
import Krypton.Lib.JobGroups
import Krypton.Lib.Assoc
import Krypton.Lib.Check
import Krypton.Lib.Aead
import Krypton.Lib.Guarded
import Krypton.Lib.Layers
import Krypton.Lib.Walk
import Krypton.Lib.Like
import Krypton.Lib.Paging
import Krypton.Lib.Base64
import Krypton.Lib.Separated
import Krypton.Lib.Tabwriter
import Krypton.Model
import Krypton.Errors
import Krypton.KeyLifecycle
import Krypton.Spec.Provider
import Krypton.Spec.Hierarchy
import Krypton.Spec.Topology
import Krypton.Spec.Segments
import Krypton.Config.Auth
import Krypton.Identity
import Krypton.Config
import Krypton.Store
import Krypton.Store.Statements
import Krypton.Store.Listing
import Krypton.Store.Migrate
import Krypton.Validator
import Krypton.KeyProcessor.Manager
import Krypton.SecureMem
import Krypton.SecureMem.Run
import Krypton.SecureMem.Persist
import Krypton.SecureMem.Tidy
import Krypton.Transaction
import Krypton.Orchestrator.KeyAction
import Krypton.Orchestrator.Moves
import Krypton.Orchestrator.Task
import Krypton.Deployment
import Krypton.ParentPath
import Krypton.Orchestrator.Outcomes
import Krypton.Orchestrator.AnnounceOutcomes
import Krypton.Admin
import Krypton.Admin.Effects
import Krypton.Root
import Krypton.Progress
import Krypton.Providers
import Krypton.Agent
import Krypton.Race
import Krypton.Fleet
import Krypton.Upserts
import Krypton.Dispositions
import Krypton.KeyTrees
import Krypton.Ancestors
import Krypton.Transitions
import Krypton.KeyProcessor.Calls
import Krypton.KeyProcessor.Build
import Krypton.KeyProcessor.Envelope
import Krypton.KeyProcessor.Memory
import Krypton.Material
import Krypton.Forest
import Krypton.RootKey
import Krypton.Secrets
import Krypton.RoundTrip
import Krypton.Gate
import Krypton.Kmip
import Krypton.Isolation
import Krypton.Writers
import Krypton.Cascade
import Krypton.Versions
import Krypton.Registration
import Krypton.Wiring
import Krypton.Processable
import Krypton.Acceptance
import Krypton.Placement
import Krypton.Respelled
import Krypton.Spelling
import Krypton.RemoteSealer
import Krypton.Lifetimes
import Krypton.Cli.Selector
import Krypton.Status
import Krypton.AgentStore
import Krypton.Heartbeats
import Krypton.Vault
import Krypton.Vault.Sqlite
import Krypton.Vault.OpenBao
import Krypton.Kmip.Sessions
import Krypton.Orchestrator.Dispatch
import Krypton.Worker
import Krypton.Vault.Specs
