/-
# Player records

`src/player/MemoryPlayerStateRepository.cpp`.
-/

import GameServer.Net.Message
import GameServer.Player.PlayerManager

namespace GameServer

/-- `struct PlayerState`. -/
structure PlayerState where
  playerId : PlayerId := 0
  name : Bytes := []
  score : ℤ := 0
  online : Bool := false
  roomId : RoomId := -1
  lastLoginTimeMs : ℤ := 0
  lastLogoutTimeMs : ℤ := 0
  deriving DecidableEq

/-- `class MemoryPlayerStateRepository`. -/
structure MemoryPlayerStateRepository where
  states : Table PlayerId PlayerState := ∅
  deriving DecidableEq

namespace MemoryPlayerStateRepository

def savePlayerState (r : MemoryPlayerStateRepository) (state : PlayerState) :
    MemoryPlayerStateRepository :=
  { r with states := r.states.insert state.playerId state }

def loadPlayerState (r : MemoryPlayerStateRepository) (playerId : PlayerId) : Option PlayerState :=
  r.states.lookup playerId

def updateScore (r : MemoryPlayerStateRepository) (playerId : PlayerId) (score : ℤ) :
    MemoryPlayerStateRepository :=
  { r with states := r.states.modify playerId fun state => { state with score := score } }

/-- `players` is an order in which `get_all_players` may return the records. -/
def GetAllPlayers (r : MemoryPlayerStateRepository) (players : List PlayerState) : Prop :=
  ∃ order, r.states.Enumerates order ∧ players = order.filterMap r.states.lookup

end MemoryPlayerStateRepository
end GameServer
