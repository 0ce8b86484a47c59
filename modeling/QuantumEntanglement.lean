import QuantumEntanglement.InvocationRecovery
import QuantumEntanglement.Store.InboxRuns
import QuantumEntanglement.Artifacts.Reopening
import QuantumEntanglement.Projections.Authorizer
import QuantumEntanglement.Migrations.Initializers
import QuantumEntanglement.Migrations.BridgePlan
import QuantumEntanglement.Publisher.Accounting
import QuantumEntanglement.Publisher.Redelivery
import QuantumEntanglement.Publisher.Leases
import QuantumEntanglement.Store.OutboxRetry
import QuantumEntanglement.Attempts.Claims
import QuantumEntanglement.Artifacts.RecordKeys
import QuantumEntanglement.ArtifactStore.Histories
import QuantumEntanglement.Tenancy.Forgery
import QuantumEntanglement.Tenancy.Wildcards
import QuantumEntanglement.Service.Redaction
import QuantumEntanglement.Tenancy.GuardRuns
import QuantumEntanglement.Operations.OneShot
import QuantumEntanglement.Context
import QuantumEntanglement.Kernel.BatchAppend
import QuantumEntanglement.Kernel.SessionRuns
import QuantumEntanglement.Projections.ExactlyOnce
import QuantumEntanglement.ArtifactStore.MetadataCodec
import QuantumEntanglement.Migrations.RegistryPrefixes
import QuantumEntanglement.Backup.SchemaSql
import QuantumEntanglement.Operations.ContextExit
import QuantumEntanglement.Results.ManifestCodec
import QuantumEntanglement.Attempts.TimestampOrder
import QuantumEntanglement.Publisher.RetryDelay
import QuantumEntanglement.AgentRuntime
import QuantumEntanglement.Adapters.EventStream
import QuantumEntanglement.Service.RedactionCut
import QuantumEntanglement.DependencyRisk.Promotion
