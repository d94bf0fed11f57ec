/-
# The server's state

`class GameServer` owns the managers and services; the services hold references to
the managers, and the sessions are the objects the managers point to.  `Server` is
the value of all of them at one moment between two handlers of the event loop.

A session is kept as the part of `Session` that the services use: the player bound
to it, its token and whether `closed_` is set, and `alive`, whether the object still
exists.  Two things are kept beside the sessions.  `lastActive` has their
`last_active_time_`, which only the idle check reads.  `sent` is every message
handed to `Session::send`, oldest first, with the session it was handed to: the
contents of the write queues with nothing taken off.

A handler that throws, or calls through a null pointer, ends the process, since
nothing catches it between the handler and `main`.  `Outcome` is the state after a
handler, or the `Crash` with the state it happened in.
-/

import GameServer.Match.MatchQueue
import GameServer.Player.PlayerStateRepository
import GameServer.Room.Room
import GameServer.Util.ServerMetrics

namespace GameServer

/-- `class Session`, as far as the services see it. -/
structure Session where
  playerId : PlayerId := 0
  token : Bytes := []
  closed : Bool := false
  alive : Bool := true
  deriving DecidableEq

/-- `class ConnectionManager`. -/
structure ConnectionManager where
  sessions : Finset SessionId := ∅
  deriving DecidableEq

namespace ConnectionManager

def addSession (m : ConnectionManager) (session : SessionId) : ConnectionManager :=
  { m with sessions := insert session m.sessions }

def removeSession (m : ConnectionManager) (session : SessionId) : ConnectionManager :=
  { m with sessions := m.sessions.erase session }

def connectionCount (m : ConnectionManager) : ℕ := m.sessions.card

end ConnectionManager

/-- One reading of the two clocks: `steady_clock` and `system_clock`, in
nanoseconds. -/
structure Instant where
  steady : Time := 0
  system : ℤ := 0
  deriving DecidableEq

/-- `class GameServer`. -/
structure Server where
  sessions : Table SessionId Session := ∅
  lastActive : Table SessionId Time := ∅
  playerManager : PlayerManager := {}
  roomManager : RoomManager := {}
  matchQueue : MatchQueue := {}
  connectionManager : ConnectionManager := {}
  playerStateManager : PlayerStateManager := {}
  playerStateRepository : MemoryPlayerStateRepository := {}
  /-- `LoginService::next_player_id_`. -/
  nextPlayerId : ℤ := 10000
  metrics : ServerMetrics := {}
  sent : List (SessionId × Response) := []
  deriving DecidableEq

/-- A fault, and the state of the server when it happened. -/
structure Crash where
  fault : Fault
  server : Server

/-- The result of a handler. -/
abbrev Outcome (α : Type) := Except Crash α

/-- The fault a handler ended in. -/
def faultOf {α : Type} : Outcome α → Option Fault
  | .ok _ => none
  | .error c => some c.fault

/-- The state a handler leaves, or fails in. -/
def stateOf : Outcome Server → Server
  | .ok s => s
  | .error c => c.server

namespace Server

/-- The session object named `sid`. -/
def session (s : Server) (sid : SessionId) : Session := (s.sessions.lookup sid).getD {}

def alive (s : Server) (sid : SessionId) : Bool := (s.sessions.lookup sid).any Session.alive

def setSession (s : Server) (sid : SessionId) (f : Session → Session) : Server :=
  { s with sessions := s.sessions.modify sid f }

/-- `Session::update_last_active_time`. -/
def updateLastActiveTime (s : Server) (sid : SessionId) (now : Time) : Server :=
  { s with lastActive := s.lastActive.insert sid now }

/-- `Session::send`: the packet is queued and counted, on an open session or not. -/
def send (s : Server) (sid : SessionId) (msg : Response) : Server :=
  { s with sent := s.sent ++ [(sid, msg)], metrics := s.metrics.incrSendPacket }

/-- The messages handed to a session, oldest first. -/
def sentTo (s : Server) (sid : SessionId) : List Response :=
  (s.sent.filter fun x => x.1 = sid).map Prod.snd

/-- Fail in the present state. -/
def crash {α : Type} (s : Server) (fault : Fault) : Outcome α := .error ⟨fault, s⟩

/-- `player_manager_.get_session(player_id)`. -/
def getSession (s : Server) (playerId : PlayerId) : Except Fault (Option SessionId) :=
  s.playerManager.getSession s.alive playerId

/-- `auto session = player_manager_.get_session(player_id); session->send(msg);` -/
def sendToPlayer (s : Server) (playerId : PlayerId) (msg : Response) : Outcome Server :=
  match s.getSession playerId with
  | .error f => s.crash f
  | .ok none => s.crash .nullPointer
  | .ok (some sid) => .ok (s.send sid msg)

/-- The loop that sends one message to the players of a list, in order. -/
def sendToAll (s : Server) (msg : Response) : List PlayerId → Outcome Server
  | [] => .ok s
  | playerId :: playerIds =>
    match s.sendToPlayer playerId msg with
    | .ok s' => s'.sendToAll msg playerIds
    | .error c => .error c

/-- `Room::broadcast`. -/
def broadcast (s : Server) (room : Room) (msg : Response) : Outcome Server :=
  s.sendToAll msg room.playerIds

/-- `Room::handle_chat`. -/
def roomHandleChat (s : Server) (room : Room) (playerId : PlayerId) (text : Bytes) :
    Outcome Server :=
  s.broadcast room (.chatNotify { roomId := room.roomId, playerId := playerId, text := text })

/-- The last loop of `create_room`: the players' records get the room's id. -/
def saveRoomId (r : MemoryPlayerStateRepository) (roomId : RoomId) (playerIds : List PlayerId) :
    MemoryPlayerStateRepository :=
  playerIds.foldl (fun r playerId =>
    match r.loadPlayerState playerId with
    | some state => r.savePlayerState { state with roomId := roomId }
    | none => r) r

/-- `RoomManager::create_room`.  The room and the map entries are there before the
players are looked up. -/
def createRoom (s : Server) (playerIds : List PlayerId) : Outcome Server :=
  let roomId := s.roomManager.nextRoomId
  let inserted := { s with roomManager := s.roomManager.insertRoom playerIds }
  match inserted.sendToAll (.roomCreatedNotify { roomId := roomId, players := playerIds })
      playerIds with
  | .ok s' => .ok { s' with
      playerStateRepository := saveRoomId s'.playerStateRepository roomId playerIds }
  | .error c => .error c

/-- Sending to a player fails in the present state or sends. -/
theorem sendToPlayer_cases (s : Server) (p : PlayerId) (msg : Response) :
    (∃ fault, s.sendToPlayer p msg = s.crash fault) ∨
      ∃ sid, s.sendToPlayer p msg = .ok (s.send sid msg) := by
  unfold sendToPlayer
  split
  · exact .inl ⟨_, rfl⟩
  · exact .inl ⟨_, rfl⟩
  · exact .inr ⟨_, rfl⟩

/-- Sending writes to the sessions and the metrics alone, also where it fails. -/
theorem stateOf_sendToAll (s : Server) (msg : Response) (ps : List PlayerId) :
    ∃ sent metrics,
      stateOf (s.sendToAll msg ps) = { s with sent := sent, metrics := metrics } := by
  induction ps generalizing s with
  | nil => exact ⟨_, _, rfl⟩
  | cons p ps ih =>
    rcases s.sendToPlayer_cases p msg with ⟨fault, hsend⟩ | ⟨sid, hsend⟩ <;> rw [sendToAll, hsend]
    · exact ⟨_, _, rfl⟩
    · obtain ⟨sent, metrics, hrest⟩ := ih (s.send sid msg)
      exact ⟨sent, metrics, hrest⟩

/-- **`create_room` leaves the rooms the same** whether or not it finds the players' sessions. -/
theorem stateOf_createRoom (s : Server) (ps : List PlayerId) :
    ∃ sent metrics records, stateOf (s.createRoom ps) = { s with
      roomManager := s.roomManager.insertRoom ps
      sent := sent
      metrics := metrics
      playerStateRepository := records } := by
  obtain ⟨sent, metrics, hsend⟩ := stateOf_sendToAll
    { s with roomManager := s.roomManager.insertRoom ps }
    (.roomCreatedNotify { roomId := s.roomManager.nextRoomId, players := ps }) ps
  rw [createRoom]
  split
  · rename_i s' hs'
    rw [hs'] at hsend
    obtain rfl : s' = _ := hsend
    exact ⟨_, _, _, rfl⟩
  · rename_i c hc
    rw [hc] at hsend
    exact ⟨sent, metrics, s.playerStateRepository, hsend⟩

end Server
end GameServer
