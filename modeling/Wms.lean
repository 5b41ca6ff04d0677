import Wms.JobDir.Exchange
import Wms.Common.Filename
import Wms.FileContainer.Compaction
import Wms.FileContainer.ValueRemoval
import Wms.FileContainer.FileOrder
import Wms.Manager.Events
import Wms.Manager.DagRuns
import Wms.Manager.Rescheduling
import Wms.Manager.CollectionContext
import Wms.Manager.ReplanDelivery
import Wms.Manager.TokenSharing
import Wms.Manager.CancelRetries
import Wms.Manager.Recovery
import Wms.Manager.Aborts
import Wms.Manager.Ism
import Wms.JobControl.JobController
import Wms.Interface.GaclGrants
import Wms.Interface.JobIdentity
import Wms.Interface.AfterFailure
import Wms.Interface.StartRuns
import Wms.Interface.CancelRuns
import Wms.Interface.PurgeRuns
import Wms.Interface.Spawning
import Wms.LogMonitor.Timer
import Wms.LogMonitor.JobWrapperOutput
import Wms.Ice.ThreadPool
import Wms.Ice.StartedJobs
import Wms.Ice.ProxyLookup
import Wms.Ice.Recovery
import Wms.JobControl.ForeignRefresh
import Wms.Broker.CreamRequirements
import Wms.Interface.JobRequirements
import Wms.Broker.MatchMaking
import Wms.Ice.StartOnly
import Wms.Ice.Token
import Wms.Ice.Registrations
import Wms.Interface.LbServers
import Wms.Purger.Nodes
import Wms.Common.Quota
import Wms.JobControl.IdPersistence
