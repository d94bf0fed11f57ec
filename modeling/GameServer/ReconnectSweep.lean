/-
# The reconnect timeout

`check_reconnect_timeout` collects the players that `PlayerStateManager` holds `Offline` for
more than 30 seconds, in the order in which it meets them in a hash map, and removes them one
after the other from the rooms and from the runtime states.  A removal may delete the room of
the player, so what a later one finds depends on the earlier ones; what is left in the end does
not.  `Server.Swept` is that state, given by the set of the players alone (`Server.expired`):
their runtime states and map entries are gone, every room has lost one occurrence of each of
them that was mapped to it (`List.eraseEach`), and the rooms without players are gone.

`sweep_exact` says that a sweep leaves this state in whatever order it goes.  That it gets
there needs `RoomManager.Consistent`, which the steps of the server keep like the calls of the
room manager.
-/

import GameServer.Formation
import GameServer.RoomMaps

/-! ### Erasing each element of a set once -/

section EraseEach

variable {α : Type*} [DecidableEq α]

/-- The list less the first occurrence of each element of `gone`. -/
def List.eraseEach (gone : Finset α) : List α → List α
  | [] => []
  | x :: xs => if x ∈ gone then xs.eraseEach (gone.erase x) else x :: xs.eraseEach gone

@[simp] theorem List.eraseEach_empty (l : List α) : l.eraseEach ∅ = l := by
  induction l with
  | nil => rfl
  | cons x xs ih => simp [eraseEach, ih]

/-- The elements may be erased one at a time. -/
theorem List.eraseEach_insert {a : α} {gone : Finset α} (ha : a ∉ gone) (l : List α) :
    l.eraseEach (insert a gone) = (l.erase a).eraseEach gone := by
  induction l generalizing gone with
  | nil => rfl
  | cons x xs ih =>
    by_cases hx : x = a
    · subst hx
      rw [List.erase_cons_head, eraseEach, if_pos (Finset.mem_insert_self ..),
        Finset.erase_insert ha]
    · rw [List.erase_cons_tail (by simpa using hx), eraseEach, eraseEach]
      by_cases hg : x ∈ gone
      · rw [if_pos (Finset.mem_insert_of_mem hg), if_pos hg,
          Finset.erase_insert_of_ne (Ne.symm hx), ih fun h => ha (Finset.mem_of_mem_erase h)]
      · have hg' : x ∉ insert a gone := by simp [hx, hg]
        rw [if_neg hg', if_neg hg, ih ha]

/-- One occurrence of each of them goes, and nothing else. -/
theorem List.count_eraseEach (gone : Finset α) (l : List α) (a : α) :
    (l.eraseEach gone).count a = if a ∈ gone then l.count a - 1 else l.count a := by
  induction gone using Finset.induction_on generalizing l with
  | empty => simp
  | insert x gone hx ih =>
    rw [eraseEach_insert hx, ih]
    by_cases ha : a = x
    · subst ha
      simp [hx]
    · simp [ha, List.count_erase_of_ne ha]

end EraseEach

namespace GameServer

/-! ### Removing several players from the rooms -/

namespace RoomManager

variable {m m' : RoomManager}

/-- The players of a room that are left when those of `gone` who are mapped to it are
removed. -/
def left (m : RoomManager) (gone : Finset PlayerId) (r : RoomId) (room : Room) : List PlayerId :=
  room.playerIds.eraseEach (gone.filter fun p => m.playerRoomMap.lookup p = some r)

/-- The room under an id when the players of `gone` are removed. -/
def roomAfter (m : RoomManager) (gone : Finset PlayerId) (r : RoomId) (room : Room) :
    Option (Option Room) :=
  if m.left gone r room = [] then none
  else some (some { room with playerIds := m.left gone r room })

theorem roomAfter_empty {r : RoomId} {room : Room} (hne : room.playerIds ≠ []) :
    m.roomAfter ∅ r room = some (some room) := by
  simp [roomAfter, left, hne]

/-- **One player more** to be removed, before the others. -/
theorem roomAfter_insert {p : PlayerId} {gone : Finset PlayerId} (hp : p ∉ gone) {r : RoomId}
    (hmap : m'.playerRoomMap = m.playerRoomMap.erase p) (room : Room) :
    m.roomAfter (insert p gone) r room = m'.roomAfter gone r
      (if m.playerRoomMap.lookup p = some r then room.removePlayer p else room) := by
  have hgone : (gone.filter fun q => m'.playerRoomMap.lookup q = some r) =
      gone.filter fun q => m.playerRoomMap.lookup q = some r := by
    refine Finset.filter_congr fun q hq => ?_
    rw [hmap, Table.lookup_erase', if_neg fun e : q = p => hp (e ▸ hq)]
  have hleft : m.left (insert p gone) r room = m'.left gone r
      (if m.playerRoomMap.lookup p = some r then room.removePlayer p else room) := by
    rw [left, left, hgone, Finset.filter_insert]
    split_ifs with hpr
    · exact List.eraseEach_insert (fun h => hp (Finset.mem_filter.1 h).1) _
    · rfl
  rw [roomAfter, roomAfter, hleft]
  split_ifs <;> rfl

/-- What the loop over the players leaves of the rooms and of the map. -/
structure Removes (m : RoomManager) (gone : Finset PlayerId) (m' : RoomManager) : Prop where
  next : m'.nextRoomId = m.nextRoomId
  map : ∀ q, m'.playerRoomMap.lookup q =
    if q ∈ gone then none else m.playerRoomMap.lookup q
  free : ∀ r, m.rooms.lookup r = none → m'.rooms.lookup r = none
  room : ∀ r room, m.rooms.lookup r = some (some room) → room.playerIds ≠ [] →
    m'.rooms.lookup r = m.roomAfter gone r room

theorem Removes.nil (m : RoomManager) : m.Removes ∅ m where
  next := rfl
  map _ := rfl
  free _ h := h
  room _ _ hr hne := hr.trans (roomAfter_empty hne).symm

/-- Removing `p` and then the others. -/
theorem Removes.cons {m₁ : RoomManager} {p : PlayerId} {gone : Finset PlayerId} (hp : p ∉ gone)
    (hm : m.removePlayer p = .ok m₁) (h : m₁.Removes gone m') : m.Removes (insert p gone) m' := by
  obtain ⟨hnext, hmap, hrooms⟩ : m₁.nextRoomId = m.nextRoomId ∧
      m₁.playerRoomMap = m.playerRoomMap.erase p ∧ ∀ r, m₁.rooms.lookup r =
        if m.playerRoomMap.lookup p = some r then
          (m.rooms.lookup r).bind fun o => o.bind fun room =>
            if room.playerIds.erase p = [] then none else some (some (room.removePlayer p))
        else m.rooms.lookup r := by
    rcases removePlayer_ok hm with ⟨hnone, rfl⟩ | ⟨r₀, room₀, hpr, hr₀, hnext, hmap, hrooms⟩
    · refine ⟨rfl, Finmap.ext_lookup fun q => ?_, fun r => by simp [hnone]⟩
      rw [Table.lookup_erase']
      split_ifs with hq
      · rw [hq, hnone]
      · rfl
    · refine ⟨hnext, hmap, fun r => ?_⟩
      rw [hrooms, hpr]
      by_cases hr : r = r₀
      · subst hr
        simp [hr₀, Room.removePlayer, Room.playerCount]
      · simp [hr, Ne.symm hr]
  constructor
  case next => exact h.next.trans hnext
  case map =>
    intro q
    rw [h.map, hmap, Table.lookup_erase']
    by_cases hq : q = p <;> simp [hq]
  case free =>
    intro r hr
    refine h.free r ?_
    simp [hrooms, hr]
  case room =>
    intro r room hr hne
    rw [roomAfter_insert hp hmap]
    have hroom := hrooms r
    split_ifs at hroom ⊢ with hpr
    · rw [hr, Option.bind_some, Option.bind_some] at hroom
      split_ifs at hroom with hnil
      · -- Nobody is left in the room, so it is gone and stays gone.
        have hlast : m₁.left gone r (room.removePlayer p) = [] := by
          rw [left, show (room.removePlayer p).playerIds = [] from hnil]
          rfl
        rw [h.free r hroom, roomAfter, if_pos hlast]
      · exact h.room r _ hroom hnil
    · exact h.room r room (hroom.trans hr) hne

/-- **The loop** removes the players of the list, in whatever order they stand in it. -/
theorem removes_of_foldlM {ps : List PlayerId} (hnd : ps.Nodup)
    (h : ps.foldlM removePlayer m = .ok m') : m.Removes ps.toFinset m' := by
  induction ps generalizing m with
  | nil =>
    obtain rfl := Except.ok.inj h
    exact .nil m
  | cons p ps ih =>
    rw [List.foldlM_cons] at h
    obtain ⟨hp, hnd⟩ := List.nodup_cons.1 hnd
    cases hm : m.removePlayer p with
    | error f => rw [hm] at h; cases h
    | ok m₁ =>
      rw [hm] at h
      rw [List.toFinset_cons]
      exact (ih hnd h).cons (by simpa using hp) hm

/-- The loop goes through when the maps agree. -/
theorem Consistent.foldlM_isOk (h : m.Consistent) (ps : List PlayerId) :
    ∃ m', ps.foldlM RoomManager.removePlayer m = .ok m' := by
  induction ps generalizing m with
  | nil => exact ⟨m, rfl⟩
  | cons p ps ih =>
    obtain ⟨m₁, hm₁⟩ := h.removePlayer_isOk p
    obtain ⟨m', hm'⟩ := ih (h.removePlayer hm₁)
    refine ⟨m', ?_⟩
    rw [List.foldlM_cons, hm₁]
    exact hm'

end RoomManager

/-! ### The sweep -/

/-- The rooms of the server agree with the map to them, at the end of every run that keeps the
room counter in range. -/
theorem RoomManager.Consistent.of_server {tr : History} {s : Server} (h : server.Run tr s)
    (hr : tr.roomsCreated < 2 ^ 31 - 1) : s.roomManager.Consistent := by
  refine core_invariant (P := fun c => c.roomManager.Consistent) .init
    (fun {c a c'} hP hC hs => ?_) h (roomsInRange h hr)
  cases hs with
  | room _ _ hne _ => exact hP.insertRoom hne (hC rfl)
  | resume _ _ hrm | close _ _ _ hrm => exact hP.mark hrm
  | sweep _ _ hfold =>
    refine Core.sweep_induction (P := fun c => c.roomManager.Consistent) hfold hP
      fun hP _ hexp => ?_
    obtain ⟨rm, hrm, rfl⟩ := Core.expire_ok hexp
    exact hP.removePlayer hrm
  | idle | accept _ | login _ | wait _ _ _ | release _ _ _ => exact hP

namespace Server

/-- The players that are held `Offline` for more than 30 whole seconds. -/
def expired (s : Server) (now : Time) : Finset PlayerId :=
  s.playerStateManager.states.keys.filter fun p =>
    ∃ st ∈ s.playerStateManager.states.lookup p,
      st.connState = .offline ∧ 30 < elapsedSeconds now st.disconnectedTime

/-- What `check_reconnect_timeout` finds are these players, each once. -/
theorem toFinset_getReconnectTimeoutPlayers {s : Server} {order : List PlayerId}
    (horder : s.playerStateManager.states.Enumerates order) (now : Time) :
    (s.playerStateManager.getReconnectTimeoutPlayers order now 30).Nodup ∧
      (s.playerStateManager.getReconnectTimeoutPlayers order now 30).toFinset = s.expired now := by
  refine ⟨horder.1.filter _, ?_⟩
  rw [PlayerStateManager.getReconnectTimeoutPlayers, List.toFinset_filter, horder.2, expired]
  refine Finset.filter_congr fun p _ => ?_
  rw [PlayerStateManager.timedOut]
  cases s.playerStateManager.states.lookup p <;> simp

/-- **What a sweep leaves**, given by the players that are removed and not by their order. -/
structure Swept (s : Server) (now : Time) (s' : Server) : Prop where
  /-- Only the runtime states, the rooms and the map to them are written. -/
  frame : s' = { s with
    playerStateManager := s'.playerStateManager
    roomManager := { s.roomManager with
      rooms := s'.roomManager.rooms
      playerRoomMap := s'.roomManager.playerRoomMap } }
  states : ∀ p, s'.playerStateManager.states.lookup p =
    if p ∈ s.expired now then none else s.playerStateManager.states.lookup p
  map : ∀ p, s'.roomManager.playerRoomMap.lookup p =
    if p ∈ s.expired now then none else s.roomManager.playerRoomMap.lookup p
  /-- A room loses one occurrence of each of the players that was mapped to it, and goes when
  nobody is left. -/
  room : ∀ r room, s.roomManager.rooms.lookup r = some (some room) →
    s'.roomManager.rooms.lookup r = s.roomManager.roomAfter (s.expired now) r room
  free : ∀ r, s.roomManager.rooms.lookup r = none → s'.roomManager.rooms.lookup r = none

/-- The loop returns when it can remove its players from their rooms. -/
theorem removePlayers_of_foldlM {s : Server} {ps : List PlayerId} {rm : RoomManager}
    (h : ps.foldlM RoomManager.removePlayer s.roomManager = .ok rm) :
    ∃ s', s.removePlayers ps = .ok s' := by
  induction ps generalizing s with
  | nil => exact ⟨s, rfl⟩
  | cons p ps ih =>
    rw [List.foldlM_cons] at h
    cases hrm : s.roomManager.removePlayer p with
    | error f => rw [hrm] at h; cases h
    | ok rm₁ =>
      rw [hrm] at h
      obtain ⟨s', hs'⟩ := ih (s := { s with
        roomManager := rm₁
        playerStateManager := s.playerStateManager.removePlayer p }) h
      exact ⟨s', by rw [removePlayers, hrm]; exact hs'⟩

/-- The runtime states after the loop. -/
theorem lookup_states_foldl (m : PlayerStateManager) (ps : List PlayerId) (q : PlayerId) :
    (ps.foldl PlayerStateManager.removePlayer m).states.lookup q =
      if q ∈ ps then none else m.states.lookup q := by
  induction ps generalizing m with
  | nil => simp
  | cons p ps ih =>
    rw [List.foldl_cons, ih, PlayerStateManager.lookup_removePlayer]
    by_cases hq : q = p <;> simp [hq]

/-- **A sweep that returns leaves this state.** -/
theorem swept_of_sweep {s s' : Server} {order : List PlayerId} {now : Instant}
    (hf : Formed s.core) (horder : s.playerStateManager.states.Enumerates order)
    (h : s.checkReconnectTimeout order now = .ok s') : s.Swept now.steady s' := by
  obtain ⟨hnd, hset⟩ := toFinset_getReconnectTimeoutPlayers horder now.steady
  obtain ⟨rm, hrm, rfl⟩ := removePlayers_ok h
  have hrem := RoomManager.removes_of_foldlM hnd hrm
  rw [hset] at hrem
  refine ⟨?_, fun p => ?_, hrem.map, fun r room hr => hrem.room r room hr ?_, hrem.free⟩
  · obtain ⟨next, rooms, map⟩ := rm
    obtain rfl : next = s.roomManager.nextRoomId := hrem.next
    rfl
  · simp only [lookup_states_foldl, ← hset, List.mem_toFinset]
  · obtain ⟨_, heq, hform⟩ := hf.room hr
    exact Option.some.inj heq ▸ hform.ne_nil

/-- There is one such state, since no room is a null pointer. -/
theorem Swept.unique {s s₁ s₂ : Server} {now : Time} (hf : Formed s.core) (h₁ : s.Swept now s₁)
    (h₂ : s.Swept now s₂) : s₁ = s₂ := by
  have hstates : s₁.playerStateManager = s₂.playerStateManager :=
    congrArg PlayerStateManager.mk
      (Finmap.ext_lookup fun p => (h₁.states p).trans (h₂.states p).symm)
  have hmap : s₁.roomManager.playerRoomMap = s₂.roomManager.playerRoomMap :=
    Finmap.ext_lookup fun p => (h₁.map p).trans (h₂.map p).symm
  have hrooms : s₁.roomManager.rooms = s₂.roomManager.rooms := by
    refine Finmap.ext_lookup fun r => ?_
    cases hr : s.roomManager.rooms.lookup r with
    | none => rw [h₁.free r hr, h₂.free r hr]
    | some o =>
      obtain ⟨room, rfl, -⟩ := hf.room hr
      rw [h₁.room r room hr, h₂.room r room hr]
  rw [h₁.frame, h₂.frame, hstates, hmap, hrooms]

/-- **The players outside** keep their runtime states and map entries, and a room that lists one
of them keeps it, with the states of its players and with everybody else outside. -/
theorem Swept.others {s s' : Server} {now : Time} (h : s.Swept now s') {p : PlayerId}
    (hp : p ∉ s.expired now) :
    s'.playerStateManager.getState p = s.playerStateManager.getState p ∧
      s'.roomManager.playerRoomMap.lookup p = s.roomManager.playerRoomMap.lookup p ∧
      ∀ r room, s.roomManager.getRoom r = some room → p ∈ room.playerIds →
        ∃ room', s'.roomManager.getRoom r = some room' ∧
          room' = { room with playerIds := room'.playerIds } ∧
          ∀ q, q ∉ s.expired now → room'.playerIds.count q = room.playerIds.count q := by
  refine ⟨(h.states p).trans (if_neg hp), (h.map p).trans (if_neg hp), fun r room hr hmem => ?_⟩
  have hcount : ∀ q, q ∉ s.expired now →
      (s.roomManager.left (s.expired now) r room).count q = room.playerIds.count q := fun q hq => by
    rw [RoomManager.left, List.count_eraseEach, if_neg fun h => hq (Finset.mem_filter.1 h).1]
  have hne : s.roomManager.left (s.expired now) r room ≠ [] := by
    intro hnil
    have hzero := hcount p hp
    rw [hnil, List.count_nil] at hzero
    exact (List.count_pos_iff.2 hmem).ne hzero
  have hroom := h.room r room ((RoomManager.getRoom_eq_some ..).1 hr)
  rw [RoomManager.roomAfter, if_neg hne] at hroom
  exact ⟨_, (RoomManager.getRoom_eq_some ..).2 hroom, rfl, hcount⟩

end Server

/-- **The sweep is exact and does not depend on its order.**  In every state that a run reaches,
at any time, a sweep that returns leaves the state `Swept` describes, so two sweeps in different
orders leave the same; the players who have not expired keep what they have.  As long as the
room counter has not wrapped around, every sweep returns. -/
theorem sweep_exact {tr : History} {s : Server} (h : server.Run tr s) (now : Instant) :
    (∀ order s', s.playerStateManager.states.Enumerates order →
        s.checkReconnectTimeout order now = .ok s' →
        s.Swept now.steady s' ∧
          (∀ p, p ∉ s.expired now.steady →
            s'.playerStateManager.getState p = s.playerStateManager.getState p ∧
            s'.roomManager.playerRoomMap.lookup p = s.roomManager.playerRoomMap.lookup p ∧
            ∀ r room, s.roomManager.getRoom r = some room → p ∈ room.playerIds →
              ∃ room', s'.roomManager.getRoom r = some room' ∧
                room' = { room with playerIds := room'.playerIds } ∧
                ∀ q, q ∉ s.expired now.steady →
                  room'.playerIds.count q = room.playerIds.count q) ∧
          ∀ order' s'', s.playerStateManager.states.Enumerates order' →
            s.checkReconnectTimeout order' now = .ok s'' → s'' = s') ∧
      (tr.roomsCreated < 2 ^ 31 - 1 →
        ∃ s', s.Swept now.steady s' ∧ ∀ order, s.playerStateManager.states.Enumerates order →
          s.checkReconnectTimeout order now = .ok s') := by
  have hf := Formed.of_run h
  refine ⟨fun order s' horder hs => ?_, fun hr => ?_⟩
  · have hswept := Server.swept_of_sweep hf horder hs
    exact ⟨hswept, fun p hp => hswept.others hp, fun order' s'' horder' hs' =>
      (Server.swept_of_sweep hf horder' hs').unique hf hswept⟩
  · have hok : ∀ order, ∃ s', s.checkReconnectTimeout order now = .ok s' := fun order =>
      let ⟨_, hrm⟩ := (RoomManager.Consistent.of_server h hr).foldlM_isOk _
      Server.removePlayers_of_foldlM hrm
    have henum : s.playerStateManager.states.Enumerates s.playerStateManager.states.keys.toList :=
      ⟨Finset.nodup_toList _, Finset.toList_toFinset _⟩
    obtain ⟨s', hs'⟩ := hok s.playerStateManager.states.keys.toList
    have hswept := Server.swept_of_sweep hf henum hs'
    refine ⟨s', hswept, fun order horder => ?_⟩
    obtain ⟨s'', hs''⟩ := hok order
    rw [hs'', (Server.swept_of_sweep hf horder hs'').unique hf hswept]

/-- Two matched players who have both left, swept in the order of their ids and against it: their
room is gone. -/
theorem sweep_exact_left : ∃ s s' : Server, s.roomManager.rooms.lookup 1 ≠ none ∧
    s.expired (31 * 10 ^ 9) = {10000, 10001} ∧
    s.checkReconnectTimeout [10000, 10001] ⟨31 * 10 ^ 9, 0⟩ = .ok s' ∧
    s.checkReconnectTimeout [10001, 10000] ⟨31 * 10 ^ 9, 0⟩ = .ok s' ∧
    s.Swept (31 * 10 ^ 9) s' ∧ s'.roomManager.rooms.lookup 1 = none := by
  obtain ⟨tr, s, h, hr, horder, horder', hgone, hroom⟩ := Server.exists_run
    (Q := fun tr s => tr.roomsCreated < 2 ^ 31 - 1 ∧
      s.playerStateManager.states.Enumerates [10000, 10001] ∧
      s.playerStateManager.states.Enumerates [10001, 10000] ∧
      s.expired (31 * 10 ^ 9) = {10000, 10001} ∧
      ∃ room ∈ (s.roomManager.rooms.lookup 1).join,
        s.roomManager.left {10000, 10001} 1 room = [])
    (Server.pairUp ++ [.close 0 {}, .close 1 {}]) (by decide +kernel)
  obtain ⟨room, hroom, hleft⟩ := hroom
  have hroom := Option.join_eq_some_iff.1 hroom
  obtain ⟨-, hok⟩ := sweep_exact h ⟨31 * 10 ^ 9, 0⟩
  obtain ⟨s', hswept, hall⟩ := hok hr
  refine ⟨s, s', by rw [hroom]; exact Option.some_ne_none _, hgone, hall _ horder, hall _ horder',
    hswept, ?_⟩
  rw [hswept.room 1 room hroom, RoomManager.roomAfter, hgone, if_pos hleft]

end GameServer
