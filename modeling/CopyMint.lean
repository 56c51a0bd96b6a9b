import CopyMint.Access.Approvals
import CopyMint.Access.StaleRequests
import CopyMint.Bot.Acknowledgements
import CopyMint.Bot.ListingSizes
import CopyMint.Bot.RateWindows
import CopyMint.Domain.Uuid7
import CopyMint.Ethereum.MalformedLogs
import CopyMint.Ethereum.ProxyStorage
import CopyMint.Ethereum.Rescans
import CopyMint.Ethereum.ScanEvidence
import CopyMint.Ethereum.WireDiscovery
import CopyMint.Migrations.Upgrades
import CopyMint.Observability.Credentials
import CopyMint.Observability.LogLines
import CopyMint.Observability.StructuredRedaction
import CopyMint.Signer.FailsClosed
import CopyMint.Signer.Issuance
import CopyMint.Telegram.Deliveries
import CopyMint.Wallets.BalanceFacts
import CopyMint.Wallets.Limit
import CopyMint.Wallets.Restorable
import CopyMint.Workers.EvidenceIdentity
import CopyMint.Workers.JobRanges
import CopyMint.Workers.QualityWarnings
import CopyMint.Workers.ScanExecutions
import CopyMint.Workers.ScanProgress
import CopyMint.Workers.ScanQueue
import CopyMint.Workspaces.Isolation
import CopyMint.Workspaces.ScanRequests
