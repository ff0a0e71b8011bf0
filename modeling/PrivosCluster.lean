import PrivosCluster.Master.ReconcileStops
import PrivosCluster.Master.ReapFailures
import PrivosCluster.Master.LegacyBilling
import PrivosCluster.Master.QuotaHistory
import PrivosCluster.Routing.TableConvergence
import PrivosCluster.Routing.HostnameAgreement
import PrivosCluster.Routing.LateRegistrations
import PrivosCluster.Routing.PrimaryHosts
import PrivosCluster.Routing.CookieDomains
import PrivosCluster.Routing.DirtyMarks
import PrivosCluster.Routing.ReverseProxy
import PrivosCluster.Routing.RouteCache
import PrivosCluster.Agent.McpDispatch
import PrivosCluster.LocalRuntime.LedgerSlots
import PrivosCluster.LocalRuntime.StagedImages
import PrivosCluster.LocalRuntime.DockerTrailer
import PrivosCluster.LocalRuntime.OvertakenErase
import PrivosCluster.Master.HubEnrollment
import PrivosCluster.Master.SuspensionMarks
import PrivosCluster.Agent.BootRecovery
import PrivosCluster.Master.PlacementSpec
import PrivosCluster.Master.UpgradeHistory
import PrivosCluster.Master.ReconfigureRollback
import PrivosCluster.Tunnel.Reconnect
import PrivosCluster.Routing.DesiredRoutes
import PrivosCluster.Master.McpDiscovery
import PrivosCluster.Agent.OomSignals
import PrivosCluster.Agent.RuntimeResources
import PrivosCluster.Agent.DeleteContainer
import PrivosCluster.Agent.ReconfigureFailures
import PrivosCluster.Agent.DeployRollback
import PrivosCluster.Agent.NetworkSweep
import PrivosCluster.Agent.RollingRedeploy
import PrivosCluster.Master.WorkspaceLock
import PrivosCluster.LocalRuntime.KeyedMutex
import PrivosCluster.Tunnel.FrameRoundTrip
import PrivosCluster.Tunnel.Forward
import PrivosCluster.Tunnel.Shutdown
