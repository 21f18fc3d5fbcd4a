import AciGateway.E2ee.Fields
import AciGateway.Session.Compaction
import AciGateway.Receipt.WellFormed
import AciGateway.Receipt.Retention
import AciGateway.Verify.Soundness
import AciGateway.Router.Reload
import AciGateway.Chutes.NoncePool
import AciGateway.Chutes.Backend
import AciGateway.Chutes.Chunking
import AciGateway.ZeroG.Backend
import AciGateway.Desktop.Revocation
import AciGateway.Desktop.Agreement
import AciGateway.Desktop.UsageStore
import AciGateway.Client.Constraints
import AciGateway.Failover.Selection
import AciGateway.Desktop.RelocationSafety
import AciGateway.Client.Admission
import AciGateway.Usage.Accounting
import AciGateway.Usage.Heartbeat
import AciGateway.Transform.Stages
import AciGateway.Transform.UsageTotals
import AciGateway.Transform.HostNames
import AciGateway.Transform.AssistantTurn
