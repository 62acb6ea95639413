import Mulac.SweepPoison
import Mulac.HandoffRetries
import Mulac.BoundedDelivery
import Mulac.Draining
import Mulac.InboxDeduplication
import Mulac.ErrorAtomicity
import Mulac.Publication
import Mulac.EventRedelivery
import Mulac.BatchAccounting
import Mulac.CommandExecution
import Mulac.KernelAssembly
import Mulac.TimeoutSweep
import Mulac.MessageTransfer
import Mulac.BrokerSettlement
import Mulac.OwnCommand
import Mulac.ConfirmedPublishing
import Mulac.InboxSubmission
import Mulac.Lineage
import Mulac.DirectMode
import Mulac.SharedPublisher
import Mulac.NoStarvation
import Mulac.HttpRuns
import Mulac.LeaseQueue
import Mulac.LeaseRefinement
import Mulac.PollingWorkers
import Mulac.WorkerDraining
import Mulac.HttpSubmissions
import Mulac.CrashRecovery
import Mulac.MessagePassage
