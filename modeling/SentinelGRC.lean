import SentinelGRC.Audit.FailClosed
import SentinelGRC.Audit.Verifiable
import SentinelGRC.Delivery.Acceptance
import SentinelGRC.Delivery.Fencing
import SentinelGRC.Delivery.Local
import SentinelGRC.Delivery.Order
import SentinelGRC.Governance.Approval
import SentinelGRC.Governance.Atomicity
import SentinelGRC.Governance.ChainBinding
import SentinelGRC.Governance.EvidenceObjects
import SentinelGRC.Governance.Lifecycle
import SentinelGRC.Governance.Verification
import SentinelGRC.Ingestion.Signing
import SentinelGRC.Jobs.Agreement
import SentinelGRC.Jobs.Fencing
import SentinelGRC.Migrations.Atomicity
import SentinelGRC.Pipeline.Retries
import SentinelGRC.Pipeline.LedgerAppend
import SentinelGRC.Pipeline.Recovery
import SentinelGRC.Pipeline.RunFencing
import SentinelGRC.Pipeline.SingleRecord
import SentinelGRC.Python.AwareDatetime
import SentinelGRC.Contracts.Validation
import SentinelGRC.Python.IpAddress
import SentinelGRC.Python.Raises
import SentinelGRC.Contracts.Fields
import SentinelGRC.Contracts.Portfolio
import SentinelGRC.Contracts.SecurityAlert
import SentinelGRC.Contracts.Staging
import SentinelGRC.Delivery.GateAgreement
import SentinelGRC.Store.Directory
import SentinelGRC.Pipeline.ClaimedJob
import SentinelGRC.Governance.Resubmission
import SentinelGRC.Connectors.ExternalFindings
import SentinelGRC.Connectors.Jml
import SentinelGRC.Connectors.JmlBridge
import SentinelGRC.Connectors.LogWatcher
import SentinelGRC.Contracts.Canonical
import SentinelGRC.Contracts.Identities
import SentinelGRC.Governance.HttpApplication
import SentinelGRC.Governance.RouteTarget
import SentinelGRC.Ingestion.StoreAgreement
import SentinelGRC.Pipeline.ManagedEvidence
import SentinelGRC.Posture.Acceptance
import SentinelGRC.Assessment.LoadSoak
import SentinelGRC.Connectors.EventIngest
import SentinelGRC.Connectors.EventUpgrade
import SentinelGRC.Identity.KeyRefresh
import SentinelGRC.Delivery.BlobStores
import SentinelGRC.Identity.Tokens
import SentinelGRC.Assessment.Workflows
import SentinelGRC.Assessment.Dockerfile
import SentinelGRC.Assessment.Containers
import SentinelGRC.Governance.LegacyEvents
import SentinelGRC.Assessment.BuilderFlags
import SentinelGRC.Governance.LegacyUpgrade
import SentinelGRC.Audit.Lookup
import SentinelGRC.Connectors.MiniSoarBridge
import SentinelGRC.Ingestion.PublicationRecovery
import SentinelGRC.Ingestion.Admission
import SentinelGRC.Identity.HumanKeys
import SentinelGRC.Delivery.Completion
import SentinelGRC.Pipeline.LogBinding
import SentinelGRC.Delivery.RestoreComparison
import SentinelGRC.Governance.Closing
