/-
# The metrics reporter

`src/util/MetricsReporter.cpp`.  A timer of the event loop has a line of statistics printed
every second.  The four gauges are set for it from the managers' sizes, each a `std::size_t`
converted to `int`, and the two rates are the packets since the last line.
-/

import GameServer.Server

namespace GameServer

/-- The line that `report_once` prints. -/
structure Report where
  online : ℤ
  conn : ℤ
  room : ℤ
  matchQueue : ℤ
  recvQps : ℤ
  sendQps : ℤ
  totalRecv : ℤ
  totalSend : ℤ
  login : ℤ
  «match» : ℤ
  chat : ℤ
  heartbeat : ℤ
  ranking : ℤ
  reconnect : ℤ
  avgHeartbeatRtt : ℚ
  deriving DecidableEq

namespace MetricsReporter

/-- `report_once`.  There is no line where one of the rates overflows. -/
def reportOnce (s : Server) : Option (Report × Server) := do
  let metrics := s.metrics.setConnectionCount (toInt s.connectionManager.connectionCount)
  let metrics := metrics.setMatchQueueSize (toInt s.matchQueue.size)
  let metrics := metrics.setOnlinePlayers (toInt s.playerManager.onlineCount)
  let metrics := metrics.setRoomCount (toInt s.roomManager.roomCount)
  let (recvQps, metrics) ← metrics.calcRecvQps
  let (sendQps, metrics) ← metrics.calcSendQps
  return ({
    online := metrics.onlinePlayers
    conn := metrics.connectionCount
    room := metrics.roomCount
    matchQueue := metrics.matchQueueSize
    recvQps := recvQps
    sendQps := sendQps
    totalRecv := metrics.totalRecvPackets
    totalSend := metrics.totalSendPackets
    login := metrics.loginReqCount
    «match» := metrics.matchReqCount
    chat := metrics.chatReqCount
    heartbeat := metrics.heartbeatReqCount
    ranking := metrics.rankingReqCount
    reconnect := metrics.reconnectReqCount
    avgHeartbeatRtt := metrics.avgHeartbeatRttMs }, { s with metrics := metrics })

end MetricsReporter
end GameServer
