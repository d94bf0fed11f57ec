/-
# Runtime states of players who have been disconnected

`src/player/PlayerStateManager.cpp`.  `save_online` stores a state with `insert`,
so a state that is already there is kept; the close callback calls it before
`mark_disconnected`, which makes the stored state `Offline` and dates it.
-/

import GameServer.Net.Message
import GameServer.Player.PlayerManager

namespace GameServer

/-- `enum PlayerConnState`. -/
inductive PlayerConnState
  | online | offline
  deriving DecidableEq

/-- `struct PlayerRuntimeState`. -/
structure PlayerRuntimeState where
  playerId : PlayerId := 0
  roomId : RoomId := 0
  connState : PlayerConnState := .online
  token : Bytes := []
  disconnectedTime : Time := 0
  deriving DecidableEq

/-- `class PlayerStateManager`. -/
structure PlayerStateManager where
  states : Table PlayerId PlayerRuntimeState := ∅
  deriving DecidableEq

/-- `duration_cast<seconds>(now - then)`, both in nanoseconds. -/
def elapsedSeconds (now t : Time) : ℤ := (now - t).tdiv (10 ^ 9)

/-- The cast truncates, so 31 whole seconds are needed to be past a limit of 30. -/
theorem lt_elapsedSeconds {now t : Time} (h : t + 31 * 10 ^ 9 ≤ now) : 30 < elapsedSeconds now t := by
  have hle : 31 * 10 ^ 9 ≤ now - t := by linarith
  rw [elapsedSeconds, Int.tdiv_eq_ediv_of_nonneg (le_trans (by norm_num) hle)]
  exact lt_of_lt_of_le (by norm_num : (30 : ℤ) < 31)
    (Int.le_ediv_of_mul_le (by norm_num) hle)

namespace PlayerStateManager

def saveOnline (m : PlayerStateManager) (playerId : PlayerId) (roomId : RoomId) (token : Bytes) :
    PlayerStateManager :=
  { m with
    states := m.states.insertNew playerId
      { playerId := playerId, connState := .online, token := token, roomId := roomId } }

def markDisconnected (m : PlayerStateManager) (playerId : PlayerId) (now : Time) :
    PlayerStateManager :=
  { m with
    states := m.states.modify playerId fun state =>
      { state with connState := .offline, disconnectedTime := now } }

def removePlayer (m : PlayerStateManager) (playerId : PlayerId) : PlayerStateManager :=
  { m with states := m.states.erase playerId }

def getState (m : PlayerStateManager) (playerId : PlayerId) : Option PlayerRuntimeState :=
  m.states.lookup playerId

def markOnline (m : PlayerStateManager) (playerId : PlayerId) : PlayerStateManager :=
  { m with states := m.states.modify playerId fun state => { state with connState := .online } }

/-- Is the player held `Offline`, and for more than `timeout` whole seconds? -/
def timedOut (m : PlayerStateManager) (now : Time) (timeout : ℤ) (playerId : PlayerId) : Bool :=
  match m.states.lookup playerId with
  | some state =>
    state.connState = .offline ∧ elapsedSeconds now state.disconnectedTime > timeout
  | none => false

/-- `get_reconnect_timeout_players`, meeting the entries of `states_` in `order`. -/
def getReconnectTimeoutPlayers (m : PlayerStateManager) (order : List PlayerId) (now : Time)
    (timeout : ℤ) : List PlayerId :=
  order.filter (m.timedOut now timeout)

/-- The states after the two calls of the close callback: the player's is `Offline`
since `now`, with the room and the token of an earlier state if there is one. -/
theorem lookup_disconnect (m : PlayerStateManager) (p q : PlayerId) (roomId : RoomId)
    (token : Bytes) (now : Time) :
    ((m.saveOnline p roomId token).markDisconnected p now).states.lookup q =
      if q = p then
        some { (m.states.lookup p).getD { playerId := p, token := token, roomId := roomId } with
          connState := .offline
          disconnectedTime := now }
      else m.states.lookup q := by
  rw [markDisconnected, saveOnline, Table.lookup_modify, Table.lookup_insertNew,
    Table.lookup_insertNew, if_pos rfl]
  split_ifs <;> rfl

theorem mem_disconnect (m : PlayerStateManager) (p q : PlayerId) (roomId : RoomId)
    (token : Bytes) (now : Time) :
    q ∈ ((m.saveOnline p roomId token).markDisconnected p now).states ↔ q = p ∨ q ∈ m.states :=
  (Table.mem_modify ..).trans (Table.mem_insertNew ..)

theorem lookup_markOnline (m : PlayerStateManager) (p q : PlayerId) :
    (m.markOnline p).states.lookup q =
      if q = p then (m.states.lookup p).map fun state => { state with connState := .online }
      else m.states.lookup q := Table.lookup_modify ..

theorem lookup_removePlayer (m : PlayerStateManager) (p q : PlayerId) :
    (m.removePlayer p).states.lookup q = if q = p then none else m.states.lookup q :=
  Table.lookup_erase' ..

end PlayerStateManager
end GameServer
