import GameServer.Net.Receive
import GameServer.Net.ReceiveLimit
import GameServer.Net.WriteQueue
import GameServer.Broadcast
import GameServer.IdleConnections
import GameServer.Inertness
import GameServer.Lifecycle
import GameServer.LoopSessions
import GameServer.Matchmaking
import GameServer.MatchmakingTotals
import GameServer.PlayerRecords
import GameServer.Reclamation
import GameServer.RestoredRoom
import GameServer.RoomChat
import GameServer.Lib.Fifo
import GameServer.MatchOrder
import GameServer.RoomMaps
import GameServer.ReconnectSweep
import GameServer.Scores
import GameServer.Ranking
import GameServer.Lib.Varint
import GameServer.Proto.Wire
import GameServer.ChatFrames
import GameServer.Refusals
import GameServer.MalformedRequests
import GameServer.WideIds
import GameServer.Lib.BigEndian
import GameServer.Net.NetworkOrder
import GameServer.HeartbeatTotals
import GameServer.PacketCounters
import GameServer.Util.MetricsReporter
import GameServer.Reports
import GameServer.Dispatcher
import GameServer.Replies
import GameServer.Streams
import GameServer.IntRange
import GameServer.Endpoints
import GameServer.Silence
import GameServer.Faults
import GameServer.LobbyModel
import GameServer.Heartbeats
