import HostedEngineHa.Struct
import HostedEngineHa.Crc32
import HostedEngineHa.InfoBlock
import HostedEngineHa.DataLayout
import HostedEngineHa.Services
import HostedEngineHa.ServicesTermination
import HostedEngineHa.Corruption
import HostedEngineHa.Reencode
import HostedEngineHa.ServicesChain
import HostedEngineHa.Whiteboard
import HostedEngineHa.Broker
import HostedEngineHa.DomainMonitor
import HostedEngineHa.Agent
import HostedEngineHa.DeviceMapper
import HostedEngineHa.Filesystem
import HostedEngineHa.Client
import HostedEngineHa.StorageServer
import HostedEngineHa.IscsiIfaces
import HostedEngineHa.ConnectionList
import HostedEngineHa.Connect
import HostedEngineHa.NormPath
import HostedEngineHa.Lockspace
import HostedEngineHa.Liveness
import HostedEngineHa.ClientStats
import HostedEngineHa.WhiteboardStats
