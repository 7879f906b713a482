import LongHorizonOS.DerivationStability
import LongHorizonOS.ConcurrentGraphs
import LongHorizonOS.IdempotentSubmission
import LongHorizonOS.LostUpdates
import LongHorizonOS.GraphRepair
import LongHorizonOS.FencedCommit
import LongHorizonOS.TerminalOutcome
import LongHorizonOS.KernelTicks
import LongHorizonOS.RebuiltDecisions
import LongHorizonOS.ExitRelease
import LongHorizonOS.JournalIntegrity
import LongHorizonOS.OutboxDelivery
import LongHorizonOS.WriteHandles
import LongHorizonOS.CapabilityDelegation
import LongHorizonOS.NamespaceQuota
import LongHorizonOS.NamespaceConfinement
import LongHorizonOS.ContextReplays
import LongHorizonOS.ConflictIndex
import LongHorizonOS.HarnessSession
import LongHorizonOS.FrontierRanking
