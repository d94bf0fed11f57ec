/-
# The maps of the room manager

`RoomManager` keeps the rooms under their ids in `rooms_` and the room of each player in
`player_room_map_`, and a room keeps a list of its players and a state for each of them.
`create_room` writes all four, `remove_player` takes a player out of two of them and the room
with the last of its players, and `remove_room` and the two marks write one each.

This module looks at the room manager alone: `roomCalls` is any sequence of calls of its five
members, with any arguments, where `create_room` finds the other managers in any state and may
fail at `get_session` after it has stored the room.  `RoomManager.Consistent` holds throughout:
an entry of `player_room_map_` leads to a room that lists the player and has a state for it,
and a room that is kept has players.  So no call meets a missing room (`room_maps_consistent`).
-/

import GameServer.Lib.Transition
import GameServer.Server

namespace GameServer

/-- A call of a member of `RoomManager` that changes it. -/
inductive RoomCall
  | createRoom (playerIds : List PlayerId)
  | removePlayer (playerId : PlayerId)
  | removeRoom (roomId : RoomId)
  | markPlayerDisconnected (playerId : PlayerId)
  | markPlayerReconnected (playerId : PlayerId)
  deriving DecidableEq

def RoomCall.creates : RoomCall → Bool
  | .createRoom _ => true
  | _ => false

theorem Server.roomManager_createRoom (s : Server) (ps : List PlayerId) :
    (stateOf (s.createRoom ps)).roomManager = s.roomManager.insertRoom ps := by
  obtain ⟨_, _, _, hs⟩ := s.stateOf_createRoom ps
  rw [hs]

namespace RoomManager

/-- The call leaves `m'` of `m`. -/
def Step (m : RoomManager) : RoomCall → RoomManager → Prop
  | .createRoom ps, m' => ps ≠ [] ∧
      ∃ s : Server, s.roomManager = m ∧ m' = (stateOf (s.createRoom ps)).roomManager
  | .removePlayer p, m' => m.removePlayer p = .ok m'
  | .removeRoom r, m' => m' = m.removeRoom r
  | .markPlayerDisconnected p, m' => m.markPlayerDisconnected p = .ok m'
  | .markPlayerReconnected p, m' => m.markPlayerReconnected p = .ok m'

end RoomManager

/-- A room manager and the calls made on it. -/
def roomCalls : Transition.System RoomManager RoomCall where
  init := {}
  step := RoomManager.Step

/-- The number of rooms that were created. -/
def created (tr : List (RoomManager × RoomCall)) : ℕ := tr.countP fun x => x.2.creates

/-- The two maps and the rooms agree. -/
structure RoomManager.Consistent (m : RoomManager) : Prop where
  mapped : ∀ {p r}, m.playerRoomMap.lookup p = some r →
    ∃ room, m.rooms.lookup r = some (some room) ∧ p ∈ room.playerIds ∧ p ∈ room.playerStates
  room : ∀ {r o}, m.rooms.lookup r = some o →
    ∃ room, o = some room ∧ room.roomId = r ∧ room.playerIds ≠ [] ∧ r < m.nextRoomId

namespace RoomManager.Consistent

variable {m m' : RoomManager}

theorem init : Consistent {} where
  mapped h := by simp at h
  room h := by simp at h

/-- The id of the next room is free. -/
theorem lookup_next (h : m.Consistent) : m.rooms.lookup m.nextRoomId = none := by
  cases hr : m.rooms.lookup m.nextRoomId with
  | none => rfl
  | some o =>
    obtain ⟨room, -, -, -, hlt⟩ := h.room hr
    exact absurd hlt (lt_irrefl _)

theorem insertRoom (h : m.Consistent) {ps : List PlayerId} (hne : ps ≠ [])
    (hnext : toInt (m.nextRoomId + 1) = m.nextRoomId + 1) : (m.insertRoom ps).Consistent := by
  have hrooms := lookup_insertRoom h.lookup_next ps
  constructor
  case mapped =>
    intro p r hp
    rw [lookup_insertRoom_map] at hp
    cases hold : m.playerRoomMap.lookup p with
    | some r₀ =>
      -- An entry that was there is kept, and so is the room it leads to.
      rw [hold, Option.getD_some, ite_self] at hp
      obtain rfl := Option.some.inj hp
      obtain ⟨room, hroom, hmem, hst⟩ := h.mapped hold
      obtain ⟨_, -, -, -, hlt⟩ := h.room hroom
      exact ⟨room, (hrooms _).trans ((if_neg hlt.ne).trans hroom), hmem, hst⟩
    | none =>
      rw [hold, Option.getD_none] at hp
      split_ifs at hp with hps
      obtain rfl := Option.some.inj hp
      exact ⟨_, (hrooms _).trans (if_pos rfl), hps, (Table.mem_insertNewAll ..).2 (.inl hps)⟩
  case room =>
    intro r o hr
    rw [hrooms] at hr
    have hlt : m.nextRoomId < (m.insertRoom ps).nextRoomId := by
      rw [RoomManager.insertRoom, hnext]
      exact lt_add_one _
    split_ifs at hr with heq
    · exact ⟨_, (Option.some.inj hr).symm, heq.symm, hne, heq ▸ hlt⟩
    · obtain ⟨room, ho, hid, hnil, hr⟩ := h.room hr
      exact ⟨room, ho, hid, hnil, hr.trans hlt⟩

/-- **What `remove_player` leaves.**  The other players keep their entries, and every room that
lists one of them is kept, less the player if it was the player's. -/
theorem removePlayer_others (h : m.Consistent) {p : PlayerId} (hm : m.removePlayer p = .ok m') :
    (∀ q, q ≠ p → m'.playerRoomMap.lookup q = m.playerRoomMap.lookup q) ∧
      ∀ r room, m.rooms.lookup r = some (some room) → (∃ q ∈ room.playerIds, q ≠ p) →
        m'.rooms.lookup r = some (some
          (if m.playerRoomMap.lookup p = some r then room.removePlayer p else room)) := by
  rcases removePlayer_ok hm with ⟨hp, rfl⟩ | ⟨r₀, room₀, hp, hr₀, -, hmap, hrooms⟩
  · refine ⟨fun _ _ => rfl, fun r room hr _ => ?_⟩
    rw [hp, if_neg (by simp), hr]
  · refine ⟨fun q hq => ?_, fun r room hr ⟨q, hq, hqp⟩ => ?_⟩
    · rw [hmap, Table.lookup_erase', if_neg hq]
    · rw [hrooms, hp]
      by_cases heq : r = r₀
      · subst heq
        obtain rfl := Option.some.inj (Option.some.inj (hr.symm.trans hr₀))
        have hcount : (room.removePlayer p).playerCount ≠ 0 := fun h0 =>
          List.ne_nil_of_mem ((List.mem_erase_of_ne hqp).2 hq) (List.length_eq_zero_iff.1 h0)
        rw [if_pos rfl, if_pos rfl, if_neg hcount]
      · rw [if_neg heq, if_neg (fun e => heq (Option.some.inj e).symm), hr]

theorem removePlayer (h : m.Consistent) {p : PlayerId} (hm : m.removePlayer p = .ok m') :
    m'.Consistent := by
  obtain ⟨hothers, hkept⟩ := h.removePlayer_others hm
  constructor
  case mapped =>
    intro q r hq
    by_cases hqp : q = p
    · subst hqp
      rcases removePlayer_ok hm with ⟨hnone, rfl⟩ | ⟨_, _, -, -, -, hmap, -⟩
      · rw [hnone] at hq
        cases hq
      · rw [hmap, Finmap.lookup_erase] at hq
        cases hq
    · rw [hothers q hqp] at hq
      obtain ⟨room, hroom, hmem, hst⟩ := h.mapped hq
      refine ⟨_, hkept r room hroom ⟨q, hmem, hqp⟩, ?_, ?_⟩
      · split_ifs
        · exact (List.mem_erase_of_ne hqp).2 hmem
        · exact hmem
      · split_ifs <;> exact hst
  case room =>
    intro r o hr
    have hnext : m'.nextRoomId = m.nextRoomId := by
      rcases removePlayer_ok hm with ⟨-, rfl⟩ | ⟨_, _, -, -, hnext, -, -⟩
      · rfl
      · exact hnext
    rw [hnext]
    rcases exists_room_of_removePlayer hm hr with hold | ⟨room, hold, rfl, hne⟩
    · exact h.room hold
    · obtain ⟨_, heq, hid, -, hlt⟩ := h.room hold
      obtain rfl := Option.some.inj heq
      exact ⟨_, rfl, hid, hne, hlt⟩

theorem removeRoom (h : m.Consistent) (r : RoomId) : (m.removeRoom r).Consistent := by
  constructor
  case mapped =>
    intro p r' hp
    rw [RoomManager.removeRoom, Table.lookup_filter, Option.filter_eq_some_iff,
      decide_eq_true_iff] at hp
    obtain ⟨room, hroom, hmem⟩ := h.mapped hp.1
    exact ⟨room, (Finmap.lookup_erase_ne hp.2).trans hroom, hmem⟩
  case room =>
    intro r' o hr
    rw [RoomManager.removeRoom, Table.lookup_erase'] at hr
    split_ifs at hr
    exact h.room hr

theorem mark (h : m.Consistent) {p : PlayerId} {conn : PlayerConnState}
    (hm : m.mark p conn = .ok m') : m'.Consistent := by
  obtain ⟨hmap, hnext⟩ := playerRoomMap_mark hm
  constructor
  case mapped =>
    intro q r hq
    rw [hmap] at hq
    obtain ⟨room, hroom, hmem, hst⟩ := h.mapped hq
    rw [lookup_mark hm, hroom, Option.map_some]
    split_ifs
    · exact ⟨_, rfl, hmem, (Table.mem_modify ..).2 hst⟩
    · exact ⟨room, rfl, hmem, hst⟩
  case room =>
    intro r o hr
    rw [hnext]
    rcases exists_room_of_mark hm hr with hold | ⟨room, hold, rfl⟩
    · exact h.room hold
    · obtain ⟨_, heq, hid, hne, hlt⟩ := h.room hold
      obtain rfl := Option.some.inj heq
      exact ⟨_, rfl, hid, hne, hlt⟩

/-- **The invariant is kept by every call** that keeps the room counter in range. -/
theorem step (h : m.Consistent) {call : RoomCall} (hs : m.Step call m')
    (hr : call.creates → toInt (m.nextRoomId + 1) = m.nextRoomId + 1) : m'.Consistent := by
  cases call with
  | createRoom ps =>
    obtain ⟨hne, s, rfl, rfl⟩ := hs
    rw [Server.roomManager_createRoom]
    exact h.insertRoom hne (hr rfl)
  | removePlayer p => exact h.removePlayer hs
  | removeRoom r => exact hs ▸ h.removeRoom r
  | markPlayerDisconnected p | markPlayerReconnected p => exact h.mark hs

/-- `get_room_by_player` finds the room of every player in the map. -/
theorem getRoomByPlayer (h : m.Consistent) {p : PlayerId} (hp : p ∈ m.playerRoomMap) :
    ∃ room, m.getRoomByPlayer p = some room := by
  obtain ⟨r, hr⟩ := Finmap.mem_iff.1 hp
  obtain ⟨room, hroom, -, -⟩ := h.mapped hr
  refine ⟨room, ?_⟩
  rw [RoomManager.getRoomByPlayer, if_neg (not_not.2 hp), getRoomIdByPlayer, hr, Option.getD_some,
    getRoom_eq_some, hroom]

theorem removePlayer_isOk (h : m.Consistent) (p : PlayerId) : ∃ m', m.removePlayer p = .ok m' :=
  RoomManager.removePlayer_isOk fun _ hr =>
    let ⟨room, hroom, _⟩ := h.mapped hr
    ⟨room, hroom⟩

/-- A mark returns, and `operator[]` has stored nothing. -/
theorem mark_isOk (h : m.Consistent) (p : PlayerId) (conn : PlayerConnState) :
    ∃ m', m.mark p conn = .ok m' ∧ ∀ r, r ∈ m'.rooms ↔ r ∈ m.rooms := by
  have hok : ∃ m', m.mark p conn = .ok m' := by
    cases hp : m.playerRoomMap.lookup p with
    | none => exact ⟨m, by simp only [RoomManager.mark, RoomManager.withRoom, hp]⟩
    | some r =>
      obtain ⟨room, hroom, -, -⟩ := h.mapped hp
      exact ⟨_, mark_of_lookup hp hroom conn⟩
  obtain ⟨m', hm⟩ := hok
  refine ⟨m', hm, fun r => ?_⟩
  rw [Table.mem_iff_isSome, lookup_mark hm, Option.isSome_map, Table.mem_iff_isSome]

end RoomManager.Consistent

/-- The room counter after a call. -/
theorem RoomManager.Step.nextRoomId_eq {m m' : RoomManager} {call : RoomCall}
    (h : m.Step call m') : m'.nextRoomId =
      if call.creates then toInt (m.nextRoomId + 1) else m.nextRoomId := by
  cases call with
  | createRoom ps =>
    obtain ⟨-, s, rfl, rfl⟩ := h
    rw [Server.roomManager_createRoom]
    rfl
  | removePlayer p =>
    rcases removePlayer_ok h with ⟨-, rfl⟩ | ⟨_, _, -, -, hnext, -, -⟩
    · rfl
    · exact hnext
  | removeRoom r =>
    obtain rfl : m' = m.removeRoom r := h
    rfl
  | markPlayerDisconnected p | markPlayerReconnected p => exact (playerRoomMap_mark h).2

theorem created_cons (tr : List (RoomManager × RoomCall)) (m : RoomManager) (call : RoomCall) :
    created ((m, call) :: tr) = created tr + if call.creates then 1 else 0 := List.countP_cons ..

/-- The room counter counts the rooms, and the maps agree, as long as `int` has room for it. -/
theorem RoomManager.Consistent.of_run {tr : List (RoomManager × RoomCall)} {m : RoomManager}
    (h : roomCalls.Run tr m) (hn : created tr < 2 ^ 31 - 1) :
    m.nextRoomId = 1 + created tr ∧ m.Consistent := by
  induction h with
  | nil => exact ⟨rfl, .init⟩
  | @cons tr m m' call _ hs ih =>
    rw [created_cons] at hn ⊢
    obtain ⟨hprev, hm⟩ := ih (by omega)
    have hrange : call.creates → toInt (m.nextRoomId + 1) = m.nextRoomId + 1 := fun hcreates => by
      rw [if_pos hcreates] at hn
      rw [hprev]
      exact toInt_of_lt (by omega) (by omega)
    refine ⟨?_, hm.step hs hrange⟩
    rw [hs.nextRoomId_eq]
    split_ifs with hcreates
    · rw [hrange hcreates, hprev]
      push_cast
      ring
    · rw [hprev]
      simp

/-- **The maps of the room manager agree** after any calls, with any arguments, as long as the
room counter does not wrap around.  So the room of a player in the map is found, removing and
marking a player return, and a mark stores no null pointer; and removing a player leaves the
others mapped as they were, to rooms that have lost at most that player. -/
theorem room_maps_consistent {tr : List (RoomManager × RoomCall)} {m : RoomManager}
    (h : roomCalls.Run tr m) (hn : created tr < 2 ^ 31 - 1) :
    m.Consistent ∧ (∀ p ∈ m.playerRoomMap, ∃ room, m.getRoomByPlayer p = some room) ∧
      (∀ p, ∃ m', m.markPlayerDisconnected p = .ok m' ∧ ∀ r, r ∈ m'.rooms ↔ r ∈ m.rooms) ∧
      (∀ p, ∃ m', m.markPlayerReconnected p = .ok m' ∧ ∀ r, r ∈ m'.rooms ↔ r ∈ m.rooms) ∧
      ∀ p, ∃ m', m.removePlayer p = .ok m' ∧
        (∀ q, q ≠ p → m'.playerRoomMap.lookup q = m.playerRoomMap.lookup q) ∧
        ∀ r room, m.rooms.lookup r = some (some room) → (∃ q ∈ room.playerIds, q ≠ p) →
          m'.rooms.lookup r = some (some
            (if m.playerRoomMap.lookup p = some r then room.removePlayer p else room)) := by
  have hm := (RoomManager.Consistent.of_run h hn).2
  refine ⟨hm, fun p hp => hm.getRoomByPlayer hp, fun p => hm.mark_isOk p .offline,
    fun p => hm.mark_isOk p .online, fun p => ?_⟩
  obtain ⟨m', hm'⟩ := hm.removePlayer_isOk p
  exact ⟨m', hm', hm.removePlayer_others hm'⟩

/-- A room for `5` and `7`, neither of whom is connected, so that `create_room` fails after its
inserts, and `5` removed from it. -/
theorem room_maps_consistent_removed : ∃ tr m, roomCalls.Run tr m ∧ tr.length = 2 ∧
    faultOf (({} : Server).createRoom [5, 7]) = some .outOfRange ∧ m.Consistent ∧
    (m.rooms.lookup 1).map (fun o => o.map Room.playerIds) = some (some [7]) := by
  have h₁ : roomCalls.Run [({}, .createRoom [5, 7])] (({} : RoomManager).insertRoom [5, 7]) :=
    .cons .nil ⟨List.cons_ne_nil _ _, {}, rfl, (Server.roomManager_createRoom {} [5, 7]).symm⟩
  obtain ⟨-, -, -, -, hremove⟩ := room_maps_consistent h₁ (by decide)
  obtain ⟨m, hm, -, hrooms⟩ := hremove 5
  have hstep : roomCalls.step (({} : RoomManager).insertRoom [5, 7]) (.removePlayer 5) m := hm
  have h₂ := h₁.cons hstep
  refine ⟨_, m, h₂, rfl, by decide, (room_maps_consistent h₂ (by decide)).1, ?_⟩
  rw [hrooms 1 (Room.new 1 [5, 7]) (by decide) ⟨7, by decide, by decide⟩]
  decide

end GameServer
