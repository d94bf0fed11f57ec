/-
# Connected players

`src/player/PlayerManager.cpp`.  `players_` maps a player id to a
`std::weak_ptr<Session>`.  A session object is named by its `SessionId`; the
weak pointer is that name, and whether it can still be locked depends on which
objects are alive.  `get_session` throws `std::out_of_range` for an unknown id and
returns a null pointer for an expired session.
-/

import GameServer.Lib.Table

namespace GameServer

abbrev PlayerId := ℤ
abbrev RoomId := ℤ
/-- A session object. -/
abbrev SessionId := ℕ
/-- A `steady_clock` time point, in nanoseconds. -/
abbrev Time := ℤ

/-- What ends the process: an uncaught `std::out_of_range`, or a call through a
null pointer. -/
inductive Fault
  | outOfRange | nullPointer
  deriving DecidableEq

/-- `class PlayerManager`. -/
structure PlayerManager where
  players : Table PlayerId SessionId := ∅
  deriving DecidableEq

namespace PlayerManager

def addPlayer (m : PlayerManager) (playerId : PlayerId) (session : SessionId) : PlayerManager :=
  { m with players := m.players.insert playerId session }

def removePlayer (m : PlayerManager) (playerId : PlayerId) : PlayerManager :=
  { m with players := m.players.erase playerId }

/-- `players_.at(player_id).lock()`, where `alive` says which session objects still
exist. -/
def getSession (m : PlayerManager) (alive : SessionId → Bool) (playerId : PlayerId) :
    Except Fault (Option SessionId) :=
  match m.players.lookup playerId with
  | none => .error .outOfRange
  | some session => .ok (if alive session then some session else none)

def isOnline (m : PlayerManager) (playerId : PlayerId) : Bool := playerId ∈ m.players

def onlineCount (m : PlayerManager) : ℕ := m.players.size

end PlayerManager
end GameServer
