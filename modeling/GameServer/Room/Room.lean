/-
# Rooms and their manager

`src/room/Room.cpp` and `src/room/RoomManager.cpp`, the parts that touch rooms
alone.  `rooms_` holds `std::shared_ptr<Room>`, which may be null: `operator[]`
under an absent key stores a null pointer before it is dereferenced.  Each room
object is held under one key only, so a room changed through its pointer is the
changed value stored under that key.

`get_room` returns null for an unknown id, and a call through it is a fault.  The
tick counter of a room and its log switch are not modelled; nothing reads them but
the log line.
-/

import GameServer.Player.PlayerStateManager
import GameServer.Proto.Message

namespace GameServer

/-- `class Room`, without its reference to the player manager. -/
structure Room where
  roomId : RoomId
  playerIds : List PlayerId
  playerStates : Table PlayerId PlayerRuntimeState
  deriving DecidableEq

namespace Room

/-- The constructor: every player starts `Online`. -/
def new (roomId : RoomId) (playerIds : List PlayerId) : Room :=
  { roomId := roomId
    playerIds := playerIds
    playerStates := (∅ : Table PlayerId PlayerRuntimeState).insertNewAll playerIds fun playerId =>
      { playerId := playerId, roomId := roomId, connState := .online } }

def playerCount (r : Room) : ℕ := r.playerIds.length

/-- The loop erases the first occurrence. -/
def removePlayer (r : Room) (playerId : PlayerId) : Room :=
  { r with playerIds := r.playerIds.erase playerId }

def isPlayerDisconnected (r : Room) (playerId : PlayerId) : Bool :=
  match r.playerStates.lookup playerId with
  | some state => state.connState = .offline
  | none => false

def mark (r : Room) (playerId : PlayerId) (conn : PlayerConnState) : Room :=
  { r with
    playerStates := r.playerStates.modify playerId fun state => { state with connState := conn } }

def markPlayerDisconnected (r : Room) (playerId : PlayerId) : Room := r.mark playerId .offline

def markPlayerOnline (r : Room) (playerId : PlayerId) : Room := r.mark playerId .online

theorem lookup_new (roomId : RoomId) (ps : List PlayerId) (p : PlayerId) :
    (Room.new roomId ps).playerStates.lookup p =
      if p ∈ ps then some { playerId := p, roomId := roomId, connState := .online } else none := by
  rw [Room.new, Table.lookup_insertNewAll, Finmap.lookup_empty, Option.getD_none]

theorem lookup_mark (r : Room) (p q : PlayerId) (conn : PlayerConnState) :
    (r.mark p conn).playerStates.lookup q =
      if q = p then (r.playerStates.lookup p).map fun state => { state with connState := conn }
      else r.playerStates.lookup q := Table.lookup_modify ..

end Room

/-- `class RoomManager`, without its references. -/
structure RoomManager where
  nextRoomId : ℤ := 1
  rooms : Table RoomId (Option Room) := ∅
  playerRoomMap : Table PlayerId RoomId := ∅
  deriving DecidableEq

namespace RoomManager

/-- A null pointer for an id that is not in `rooms_`. -/
def getRoom (m : RoomManager) (roomId : RoomId) : Option Room := (m.rooms.lookup roomId).join

def getRoomIdByPlayer (m : RoomManager) (playerId : PlayerId) : RoomId :=
  (m.playerRoomMap.lookup playerId).getD (-1)

def getRoomByPlayer (m : RoomManager) (playerId : PlayerId) : Option Room :=
  if playerId ∉ m.playerRoomMap then none else m.getRoom (m.getRoomIdByPlayer playerId)

def roomCount (m : RoomManager) : ℕ := m.rooms.size

/-- The insertions at the start of `create_room`: the new room under the next id,
and every player's entry in `player_room_map_` unless there is one already. -/
def insertRoom (m : RoomManager) (playerIds : List PlayerId) : RoomManager :=
  { nextRoomId := toInt (m.nextRoomId + 1)
    rooms := m.rooms.insertNew m.nextRoomId (some (Room.new m.nextRoomId playerIds))
    playerRoomMap := m.playerRoomMap.insertNewAll playerIds fun _ => m.nextRoomId }

def removePlayer (m : RoomManager) (playerId : PlayerId) : Except Fault RoomManager :=
  if playerId ∉ m.playerRoomMap then .ok m
  else
    let roomId := m.getRoomIdByPlayer playerId
    match m.getRoom roomId with
    | none => .error .nullPointer
    | some room =>
      let room' := room.removePlayer playerId
      let rooms := m.rooms.insert roomId (some room')
      .ok { m with
        playerRoomMap := m.playerRoomMap.erase playerId
        rooms := if room'.playerCount = 0 then rooms.erase roomId else rooms }

/-- The room goes, and with it every entry of `player_room_map_` that leads to it. -/
def removeRoom (m : RoomManager) (roomId : RoomId) : RoomManager :=
  { m with
    rooms := m.rooms.erase roomId
    playerRoomMap := m.playerRoomMap.filter fun _ r => r ≠ roomId }

/-- Looks the room of the player up with `operator[]` and calls `f` on it. -/
def withRoom (m : RoomManager) (playerId : PlayerId) (f : Room → Room) :
    Except Fault RoomManager :=
  match m.playerRoomMap.lookup playerId with
  | none => .ok m
  | some roomId =>
    match (m.rooms.insertNew roomId none).lookup roomId with
    | some (some room) => .ok { m with rooms := m.rooms.insert roomId (some (f room)) }
    | _ => .error .nullPointer

def markPlayerDisconnected (m : RoomManager) (playerId : PlayerId) : Except Fault RoomManager :=
  m.withRoom playerId fun room => room.markPlayerDisconnected playerId

def markPlayerReconnected (m : RoomManager) (playerId : PlayerId) : Except Fault RoomManager :=
  m.withRoom playerId fun room => room.markPlayerOnline playerId

/-- Both of them, with what they mark the player as. -/
def mark (m : RoomManager) (playerId : PlayerId) (conn : PlayerConnState) :
    Except Fault RoomManager :=
  m.withRoom playerId fun room => room.mark playerId conn

theorem markPlayerDisconnected_eq (m : RoomManager) (p : PlayerId) :
    m.markPlayerDisconnected p = m.mark p .offline := rfl

theorem markPlayerReconnected_eq (m : RoomManager) (p : PlayerId) :
    m.markPlayerReconnected p = m.mark p .online := rfl

theorem getRoom_eq_some (m : RoomManager) (r : RoomId) (room : Room) :
    m.getRoom r = some room ↔ m.rooms.lookup r = some (some room) := by
  rw [getRoom, Option.join_eq_some_iff]

/-- **Marking a player** changes the entry of that player in the room mapped to, and
fails when there is no such room. -/
theorem mark_ok {m m' : RoomManager} {p : PlayerId} {conn : PlayerConnState}
    (h : m.mark p conn = .ok m') :
    (m.playerRoomMap.lookup p = none ∧ m' = m) ∨
      ∃ r room, m.playerRoomMap.lookup p = some r ∧ m.rooms.lookup r = some (some room) ∧
        m' = { m with rooms := m.rooms.insert r (some (room.mark p conn)) } := by
  unfold mark withRoom at h
  cases hp : m.playerRoomMap.lookup p with
  | none =>
    simp only [hp] at h
    exact .inl ⟨rfl, (Except.ok.inj h).symm⟩
  | some r =>
    simp only [hp, Table.lookup_insertNew, if_true] at h
    -- An absent room is a null pointer that `operator[]` has just stored.
    cases hr : m.rooms.lookup r with
    | none => simp [hr] at h
    | some o =>
      cases o with
      | none => simp [hr] at h
      | some room =>
        simp only [hr, Option.getD_some] at h
        exact .inr ⟨r, room, rfl, hr, (Except.ok.inj h).symm⟩

/-- The rooms after a player was marked, one equation for all of them. -/
theorem lookup_mark {m m' : RoomManager} {p : PlayerId} {conn : PlayerConnState}
    (h : m.mark p conn = .ok m') (r : RoomId) :
    m'.rooms.lookup r = (m.rooms.lookup r).map fun o =>
      if m.playerRoomMap.lookup p = some r then o.map fun room => room.mark p conn else o := by
  rcases mark_ok h with ⟨hp, rfl⟩ | ⟨r₀, room, hp, hr, rfl⟩
  · simp [hp]
  · rw [Table.lookup_insert', hp]
    by_cases hr' : r = r₀
    · subst hr'
      simp [hr]
    · simp [hr', Ne.symm hr']

theorem playerRoomMap_mark {m m' : RoomManager} {p : PlayerId} {conn : PlayerConnState}
    (h : m.mark p conn = .ok m') :
    m'.playerRoomMap = m.playerRoomMap ∧ m'.nextRoomId = m.nextRoomId := by
  rcases mark_ok h with ⟨-, rfl⟩ | ⟨_, _, -, -, rfl⟩ <;> exact ⟨rfl, rfl⟩

/-- A room after a player was marked is a room from before, with the same players and
the entries of the others. -/
theorem exists_room_of_mark {m m' : RoomManager} {p : PlayerId} {conn : PlayerConnState}
    (h : m.mark p conn = .ok m') {r : RoomId} {o : Option Room} (hr : m'.rooms.lookup r = some o) :
    m.rooms.lookup r = some o ∨
      ∃ room, m.rooms.lookup r = some (some room) ∧ o = some (room.mark p conn) := by
  rcases mark_ok h with ⟨-, rfl⟩ | ⟨r₀, room, -, hr₀, rfl⟩
  · exact .inl hr
  · rw [Table.lookup_insert'] at hr
    split_ifs at hr with heq
    · exact .inr ⟨room, heq ▸ hr₀, (Option.some.inj hr).symm⟩
    · exact .inl hr

theorem mark_of_lookup {m : RoomManager} {p : PlayerId} {r : RoomId} {room : Room}
    (hp : m.playerRoomMap.lookup p = some r) (hr : m.rooms.lookup r = some (some room))
    (conn : PlayerConnState) :
    m.mark p conn = .ok { m with rooms := m.rooms.insert r (some (room.mark p conn)) } := by
  simp only [mark, withRoom, hp, Table.lookup_insertNew, if_true, hr, Option.getD_some]

/-- **Removing a player** takes the map entry away and the id out of the room mapped
to, which goes when nobody is left. -/
theorem removePlayer_ok {m m' : RoomManager} {p : PlayerId} (h : m.removePlayer p = .ok m') :
    (m.playerRoomMap.lookup p = none ∧ m' = m) ∨
      ∃ r room, m.playerRoomMap.lookup p = some r ∧ m.rooms.lookup r = some (some room) ∧
        m'.nextRoomId = m.nextRoomId ∧ m'.playerRoomMap = m.playerRoomMap.erase p ∧
        ∀ r', m'.rooms.lookup r' =
          if r' = r then
            if (room.removePlayer p).playerCount = 0 then none else some (some (room.removePlayer p))
          else m.rooms.lookup r' := by
  unfold removePlayer at h
  cases hp : m.playerRoomMap.lookup p with
  | none =>
    rw [if_pos ((Table.not_mem_iff ..).2 hp)] at h
    exact .inl ⟨rfl, (Except.ok.inj h).symm⟩
  | some r =>
    have hof : m.getRoomIdByPlayer p = r := by rw [getRoomIdByPlayer, hp, Option.getD_some]
    rw [if_neg (not_not.2 (Finmap.mem_of_lookup_eq_some hp)), hof] at h
    cases hr : m.getRoom r with
    | none => simp [hr] at h
    | some room =>
      simp only [hr] at h
      obtain rfl := Except.ok.inj h
      refine .inr ⟨r, room, rfl, (getRoom_eq_some ..).1 hr, rfl, rfl, fun r' => ?_⟩
      by_cases hr' : r' = r
      · subst hr'
        rw [if_pos rfl]
        dsimp only
        split_ifs
        · rw [Finmap.lookup_erase]
        · rw [Finmap.lookup_insert]
      · rw [if_neg hr']
        dsimp only
        split_ifs
        · rw [Finmap.lookup_erase_ne hr', Finmap.lookup_insert_of_ne _ hr']
        · rw [Finmap.lookup_insert_of_ne _ hr']

/-- A room after a player was removed is a room from before, or one that lost the
player and still has others. -/
theorem exists_room_of_removePlayer {m m' : RoomManager} {p : PlayerId}
    (h : m.removePlayer p = .ok m') {r : RoomId} {o : Option Room}
    (hr : m'.rooms.lookup r = some o) :
    m.rooms.lookup r = some o ∨ ∃ room, m.rooms.lookup r = some (some room) ∧
      o = some (room.removePlayer p) ∧ room.playerIds.erase p ≠ [] := by
  rcases removePlayer_ok h with ⟨-, rfl⟩ | ⟨r₀, room, -, hr₀, -, -, hrooms⟩
  · exact .inl hr
  · rw [hrooms] at hr
    split_ifs at hr with heq hcount
    · exact .inr ⟨room, heq ▸ hr₀, (Option.some.inj hr).symm,
        fun hnil => hcount (List.length_eq_zero_iff.2 hnil)⟩
    · exact .inl hr

theorem roomCount_insertRoom_le (m : RoomManager) (ps : List PlayerId) :
    (m.insertRoom ps).roomCount ≤ m.roomCount + 1 := Table.size_insertNew_le ..

theorem roomCount_mark_le {m m' : RoomManager} {p : PlayerId} {conn : PlayerConnState}
    (h : m.mark p conn = .ok m') : m'.roomCount ≤ m.roomCount :=
  Table.size_le_size fun r hr => by
    obtain ⟨o, ho⟩ := Finmap.mem_iff.1 hr
    rcases exists_room_of_mark h ho with hold | ⟨_, hold, -⟩ <;>
      exact Finmap.mem_of_lookup_eq_some hold

theorem roomCount_removePlayer_le {m m' : RoomManager} {p : PlayerId}
    (h : m.removePlayer p = .ok m') : m'.roomCount ≤ m.roomCount :=
  Table.size_le_size fun r hr => by
    obtain ⟨o, ho⟩ := Finmap.mem_iff.1 hr
    rcases exists_room_of_removePlayer h ho with hold | ⟨_, hold, -⟩ <;>
      exact Finmap.mem_of_lookup_eq_some hold

theorem removePlayer_isOk {m : RoomManager} {p : PlayerId}
    (h : ∀ r, m.playerRoomMap.lookup p = some r → ∃ room, m.rooms.lookup r = some (some room)) :
    ∃ m', m.removePlayer p = .ok m' := by
  unfold removePlayer
  split_ifs with hp
  · obtain ⟨r, hr⟩ := Finmap.mem_iff.1 hp
    obtain ⟨room, hroom⟩ := h r hr
    have hof : m.getRoomIdByPlayer p = r := by rw [getRoomIdByPlayer, hr, Option.getD_some]
    simp only [hof, (getRoom_eq_some ..).2 hroom]
    exact ⟨_, rfl⟩
  · exact ⟨m, rfl⟩

/-- The rooms after a room was created under an id that was free. -/
theorem lookup_insertRoom {m : RoomManager} (hfree : m.rooms.lookup m.nextRoomId = none)
    (ps : List PlayerId) (r : RoomId) : (m.insertRoom ps).rooms.lookup r =
      if r = m.nextRoomId then some (some (Room.new m.nextRoomId ps)) else m.rooms.lookup r := by
  rw [insertRoom, Table.lookup_insertNew, hfree, Option.getD_none]

/-- A room after `create_room` is a room from before or the new one, under an id that
was free. -/
theorem exists_room_of_insertRoom {m : RoomManager} {ps : List PlayerId} {r : RoomId}
    {o : Option Room} (hr : (m.insertRoom ps).rooms.lookup r = some o) :
    m.rooms.lookup r = some o ∨
      r = m.nextRoomId ∧ m.rooms.lookup r = none ∧ o = some (Room.new r ps) := by
  rw [insertRoom, Table.lookup_insertNew] at hr
  split_ifs at hr with heq
  · subst heq
    cases hold : m.rooms.lookup m.nextRoomId with
    | some o' => exact .inl (by simpa [hold] using hr)
    | none => exact .inr ⟨rfl, rfl, by simpa [hold] using hr.symm⟩
  · exact .inl hr

/-- A player without a room gets the new one, and a player with a room keeps it. -/
theorem lookup_insertRoom_map (m : RoomManager) (ps : List PlayerId) (p : PlayerId) :
    (m.insertRoom ps).playerRoomMap.lookup p =
      if p ∈ ps then some ((m.playerRoomMap.lookup p).getD m.nextRoomId)
      else m.playerRoomMap.lookup p := Table.lookup_insertNewAll ..

end RoomManager
end GameServer
