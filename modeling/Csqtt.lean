import Csqtt.BigEndian
import Csqtt.Runs
import Csqtt.Reassembly
import Csqtt.ReassemblyHoles
import Csqtt.ReassemblyTiles
import Csqtt.ProxySequence
import Csqtt.ReorderDelivery
import Csqtt.ReorderEntries
import Csqtt.ReorderHoles
import Csqtt.ReorderComplete
import Csqtt.ProxyFrame
import Csqtt.ClientProxy
import Csqtt.ClientTurns
import Csqtt.ClientUplink
import Csqtt.ClientLog
import Csqtt.ClientReplay
import Csqtt.ClientDownlink
import Csqtt.ServerProxy
import Csqtt.ServerResend
import Csqtt.DownlinkWindow
import Csqtt.Mailbox
import Csqtt.SenderTable
import Csqtt.ClientInbound
import Csqtt.ServerControl
import Csqtt.ServerUplink
import Csqtt.ServerTable
import Csqtt.ServerOpens
import Csqtt.BitWindow
import Csqtt.ServerAntiReplay
import Csqtt.ClientAntiReplay
import Csqtt.Buffer
import Csqtt.RtpFormat
import Csqtt.ClientObfs
import Csqtt.ClientUnwrap
import Csqtt.ServerWire
import Csqtt.ServerUnwrap
import Csqtt.WireRoundTrip
import Csqtt.WireNonces
import Csqtt.Slab
import Csqtt.Text
import Csqtt.AssocMap
import Csqtt.KeyedTable
import Csqtt.ServerEpoch
import Csqtt.EpochAdmission
import Csqtt.ServerRoutes
import Csqtt.ServerEngine
import Csqtt.ServerRoutine
import Csqtt.ServerSessions
import Csqtt.ServerEngineRuns
import Csqtt.ReflectedDatagrams
import Csqtt.ServerDatabase
import Csqtt.ServerPanel
import Csqtt.ConfigRequest
import Csqtt.DatabaseHistory
import Csqtt.DeviceBindings
import Csqtt.ClientCreation
import Csqtt.DatabasePersistence
import Csqtt.StoredTables
import Csqtt.PersistedUpdates
import Csqtt.LegacyImport
import Csqtt.ImportedAddresses
import Csqtt.ServerStart
import Csqtt.TrafficFlush
import Csqtt.DiskCounters
import Csqtt.ServerNames
import Csqtt.ServerControlPlane
import Csqtt.ServerTasks
import Csqtt.SessionIdentities
import Csqtt.StaleGenerations
import Csqtt.TunnelAddresses
import Csqtt.RoutableAddresses
import Csqtt.ServerEntitled
import Csqtt.ServerJustified
import Csqtt.ServerAdmission
import Csqtt.ServerUnharmed
import Csqtt.ReplayedDatagrams
import Csqtt.StunCodec
import Csqtt.TurnMessages
import Csqtt.TurnCore
import Csqtt.TurnMoves
import Csqtt.TurnTraces
import Csqtt.TurnInvariants
import Csqtt.TurnAuthenticated
import Csqtt.TurnUnsigned
import Csqtt.DownlinkDelivery
import Csqtt.DataplaneSupervisor
import Csqtt.VouchedSessions
import Csqtt.ServerStreamTasks
import Csqtt.StreamFeeds
import Csqtt.ClientStreamLimit
import Csqtt.ClientRepair
import Csqtt.RepairHistory
import Csqtt.LostRepair
import Csqtt.StreamRounds
import Csqtt.StreamPlane
import Csqtt.StreamCarriers
import Csqtt.StreamRetention
import Csqtt.StreamCommands
import Csqtt.RoundRobin
import Csqtt.ClientDispatcher
import Csqtt.TurnPathOrder
import Csqtt.CarrierPins
import Csqtt.CarrierAborts
import Csqtt.Traces
import Csqtt.TurnWellFormed
import Csqtt.StunWire
import Csqtt.TurnRequests
import Csqtt.TurnShutdown
import Csqtt.TurnRequestSize
import Csqtt.Segments
import Csqtt.TurnStream
import Csqtt.SelectiveFec
import Csqtt.CredentialCache
import Csqtt.LoginLimits
import Csqtt.ProxyQuota
import Csqtt.TcpEviction
import Csqtt.SystemRuns
import Csqtt.PacketEpochs
import Csqtt.ExtensionHeaders
