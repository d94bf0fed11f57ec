/-
# The three views of a room member's connectivity

Whether a player with a room is connected is kept three times: in the room's
`player_states_`, in `PlayerManager::players_`, and in
`PlayerStateManager::states_`.  Creating a room, the close callback, a reconnect and
a sweep each have to bring all three along.

`Linked` is the invariant.  Everything in it is about the players in
`player_room_map_`: the map leads to a room that exists and lists the player, the
room's entry is `Online` exactly for the players in `players_`, and a player who is
not there is held `Offline`.  That nobody in `players_` is `Offline` is `WellBound`,
which also gives that a freshly issued id is in no room.
-/

import GameServer.Binding
import GameServer.Formation

namespace GameServer

/-- `r` is a room that lists `p` and has an entry for `p`, which is `Online` exactly when
`players` has `p`. -/
def RoomManager.Seats (m : RoomManager) (players : Table PlayerId SessionId) (p : PlayerId)
    (r : RoomId) : Prop :=
  ∃ room st, m.rooms.lookup r = some (some room) ∧ p ∈ room.playerIds ∧
    room.playerStates.lookup p = some st ∧ (st.connState = .online ↔ p ∈ players)

theorem RoomManager.Seats.congr {m m' : RoomManager} {players players' : Table PlayerId SessionId}
    {p : PlayerId} {r : RoomId} (h : m.Seats players p r)
    (hroom : m'.rooms.lookup r = m.rooms.lookup r) (hp : p ∈ players' ↔ p ∈ players) :
    m'.Seats players' p r := by
  rw [Seats, hroom, hp]
  exact h

/-- The rooms, the map to them, and the connectivity of the players in the map. -/
structure Linked (c : Core) : Prop where
  mapped : ∀ {p r}, c.roomManager.playerRoomMap.lookup p = some r →
    c.roomManager.Seats c.playerManager.players p r
  offline : ∀ {p}, p ∈ c.roomManager.playerRoomMap → p ∉ c.playerManager.players → c.Offline p

namespace Linked

variable {c c' : Core}

theorem init : Linked {} where
  mapped h := by simp at h
  offline h := absurd h Finmap.notMem_empty

/-- A player with a room has an id the server has met. -/
theorem mapped_known (h : Linked c) (hw : WellBound c) {p : PlayerId}
    (hp : p ∈ c.roomManager.playerRoomMap) : c.Known p := by
  by_cases hon : p ∈ c.playerManager.players
  · exact hw.player_known hon
  · exact hw.offline_known (h.offline hp hon)

theorem login (h : Linked c) (hw : WellBound c) (sid : SessionId) :
    Linked { c with
      nextPlayerId := toInt (c.nextPlayerId + 1)
      sessions := c.sessions.modify sid fun ses =>
        { ses with
          playerId := c.nextPlayerId
          token := LoginService.generateToken c.nextPlayerId }
      playerManager := c.playerManager.addPlayer c.nextPlayerId sid
      connectionManager := c.connectionManager.addSession sid } := by
  have hmem : ∀ {p}, p ∈ c.roomManager.playerRoomMap →
      (p ∈ (c.playerManager.addPlayer c.nextPlayerId sid).players ↔ p ∈ c.playerManager.players) := by
    intro p hp
    refine Finmap.mem_insert.trans (or_iff_right fun e => hw.next_not_known ?_)
    exact e ▸ h.mapped_known hw hp
  exact ⟨fun hp => (h.mapped hp).congr rfl (hmem (Finmap.mem_of_lookup_eq_some hp)),
    fun hp hon => h.offline hp (mt (hmem hp).2 hon)⟩

theorem room (h : Linked c) (hn : Numbered c) {ps : List PlayerId} (q : MatchQueue)
    (hres : ∀ x ∈ ps, c.Resolves x) :
    Linked { c with matchQueue := q, roomManager := c.roomManager.insertRoom ps } := by
  have hon : ∀ x ∈ ps, x ∈ c.playerManager.players := fun x hx =>
    let ⟨_, hsid, _⟩ := hres x hx
    Finmap.mem_of_lookup_eq_some hsid
  constructor
  case mapped =>
    intro p r hp
    rw [RoomManager.lookup_insertRoom_map] at hp
    have hrooms := RoomManager.lookup_insertRoom hn.lookup_next ps
    -- Only the players who had no room are mapped to the new one.
    cases hold : c.roomManager.playerRoomMap.lookup p with
    | some r₀ =>
      obtain rfl : r = r₀ := by
        rw [hold, Option.getD_some, ite_self] at hp
        exact (Option.some.inj hp).symm
      exact (h.mapped hold).congr ((hrooms r).trans (if_neg (hn.map_lt hold).ne)) Iff.rfl
    | none =>
      rw [hold, Option.getD_none] at hp
      split_ifs at hp with hps
      obtain rfl := Option.some.inj hp
      exact ⟨_, { playerId := p, roomId := c.roomManager.nextRoomId, connState := .online },
        (hrooms _).trans (if_pos rfl), hps, (Room.lookup_new ..).trans (if_pos hps),
        iff_of_true rfl (hon p hps)⟩
  case offline =>
    intro p hp hp'
    rcases (Table.mem_insertNewAll ..).1 hp with hps | hp
    · exact absurd (hon p hps) hp'
    · exact h.offline hp hp'

/-- Marking a player in the rooms goes with adding the player to `players_`, or taking
the player away. -/
theorem mapped_mark (h : Linked c) {p : PlayerId} {conn : PlayerConnState} {rm : RoomManager}
    (hrm : c.roomManager.mark p conn = .ok rm) {players : Table PlayerId SessionId}
    (hp : conn = .online ↔ p ∈ players)
    (hother : ∀ q, q ≠ p → (q ∈ players ↔ q ∈ c.playerManager.players)) {q : PlayerId}
    {r : RoomId} (hq : rm.playerRoomMap.lookup q = some r) : rm.Seats players q r := by
  rw [(RoomManager.playerRoomMap_mark hrm).1] at hq
  obtain ⟨room, st, hroom, hmem, hst, hon⟩ := h.mapped hq
  rw [RoomManager.Seats, RoomManager.lookup_mark hrm, hroom, Option.map_some]
  by_cases hqp : q = p
  · subst hqp
    rw [if_pos hq]
    refine ⟨_, { st with connState := conn }, rfl, hmem, ?_, hp⟩
    rw [Room.lookup_mark, if_pos rfl, hst, Option.map_some]
  · rw [← hother q hqp] at hon
    split_ifs
    · refine ⟨_, st, rfl, hmem, ?_, hon⟩
      rw [Room.lookup_mark, if_neg hqp, hst]
    · exact ⟨room, st, rfl, hmem, hst, hon⟩

theorem resume (h : Linked c) {sid : SessionId} {p : PlayerId} {token : Bytes} {rm : RoomManager}
    (hrm : c.roomManager.mark p .online = .ok rm) :
    Linked { c with
      sessions := c.sessions.modify sid fun ses => { ses with playerId := p, token := token }
      playerManager := c.playerManager.addPlayer p sid
      connectionManager := c.connectionManager.addSession sid
      roomManager := rm
      playerStateManager := c.playerStateManager.markOnline p } := by
  constructor
  case mapped =>
    exact h.mapped_mark hrm (iff_of_true rfl (Finmap.mem_insert.2 (.inl rfl)))
      fun q hq => Finmap.mem_insert.trans (or_iff_right hq)
  case offline =>
    intro q hq hon
    have hq : q ∈ rm.playerRoomMap := hq
    rw [(RoomManager.playerRoomMap_mark hrm).1] at hq
    obtain ⟨hqp, hon⟩ := not_or.1 (mt Finmap.mem_insert.2 hon)
    exact (Core.offline_resume rfl q).2 ⟨hqp, h.offline hq hon⟩

theorem close (h : Linked c) {sid : SessionId} {ses : Session} {now : Time} {rm : RoomManager}
    (hrm : c.roomManager.mark ses.playerId .offline = .ok rm) :
    Linked { c with
      sessions := c.sessions.modify sid fun ses => { ses with closed := true }
      matchQueue := c.matchQueue.leave ses.playerId
      playerManager := c.playerManager.removePlayer ses.playerId
      connectionManager := c.connectionManager.removeSession sid
      playerStateManager := (c.playerStateManager.saveOnline ses.playerId
        (c.roomManager.getRoomIdByPlayer ses.playerId) ses.token).markDisconnected ses.playerId now
      roomManager := rm } := by
  constructor
  case mapped =>
    exact h.mapped_mark hrm
      (iff_of_false (by decide) fun hmem => (Finmap.mem_erase.1 hmem).1 rfl)
      fun q hq => Finmap.mem_erase.trans (and_iff_right hq)
  case offline =>
    intro q hq hon
    have hq : q ∈ rm.playerRoomMap := hq
    rw [(RoomManager.playerRoomMap_mark hrm).1] at hq
    rw [Core.offline_close rfl]
    by_cases hqp : q = ses.playerId
    · exact .inl hqp
    · exact .inr (h.offline hq fun hmem => hon (Finmap.mem_erase.2 ⟨hqp, hmem⟩))

/-- Removing a player leaves the others where they are: a room with one of them in it
is not empty. -/
theorem mapped_expire {p : PlayerId} (hexp : c.expire p = .ok c')
    (h : ∀ {q r}, c.roomManager.playerRoomMap.lookup q = some r →
      c.roomManager.Seats c.playerManager.players q r) {q : PlayerId} {r : RoomId}
    (hq : c'.roomManager.playerRoomMap.lookup q = some r) :
    c'.roomManager.Seats c'.playerManager.players q r := by
  obtain ⟨rm, hrm, rfl⟩ := Core.expire_ok hexp
  rcases RoomManager.removePlayer_ok hrm with ⟨-, rfl⟩ | ⟨r₀, room₀, hp, hr₀, -, hmap, hrooms⟩
  · exact h hq
  · rw [hmap, Table.lookup_erase'] at hq
    split_ifs at hq with hqp
    obtain ⟨room, st, hroom, hmem, hst, hon⟩ := h hq
    rw [RoomManager.Seats, hrooms]
    split_ifs with hr hcount
    · subst hr
      obtain rfl := Option.some.inj (Option.some.inj (hr₀.symm.trans hroom))
      have hmem' : q ∈ room₀.playerIds.erase p := (List.mem_erase_of_ne hqp).2 hmem
      exact absurd (List.length_eq_zero_iff.1 hcount) (List.ne_nil_of_mem hmem')
    · subst hr
      obtain rfl := Option.some.inj (Option.some.inj (hr₀.symm.trans hroom))
      exact ⟨_, st, rfl, (List.mem_erase_of_ne hqp).2 hmem, hst, hon⟩
    · exact ⟨room, st, hroom, hmem, hst, hon⟩

theorem sweep (h : Linked c) {ps : List PlayerId} (hfold : ps.foldlM Core.expire c = .ok c') :
    Linked c' := by
  have hmapped : ∀ q r, c'.roomManager.playerRoomMap.lookup q = some r →
      c'.roomManager.Seats c'.playerManager.players q r := by
    refine Core.sweep_induction (P := fun c => ∀ q r,
        c.roomManager.playerRoomMap.lookup q = some r →
          c.roomManager.Seats c.playerManager.players q r) hfold
      (fun _ _ => h.mapped) fun hP _ hexp => ?_
    exact fun _ _ => mapped_expire hexp fun {q r} => hP q r
  constructor
  case mapped => exact fun {p r} => hmapped p r
  case offline =>
    intro p hp hon
    have hframe : c'.playerManager = c.playerManager := by rw [Core.sweep_frame hfold]
    obtain ⟨hps, hp⟩ := (Core.mem_playerRoomMap_sweep hfold p).1 hp
    rw [hframe] at hon
    exact (Core.offline_sweep hfold p).2 ⟨hps, h.offline hp hon⟩

/-- **The invariant is kept by every step.** -/
theorem step {a : Act} (h : Linked c) (hw : WellBound c) (hn : Numbered c)
    (hs : CoreStep c a c') : Linked c' := by
  cases hs with
  | login _ => exact h.login hw _
  | room _ _ _ hres => exact h.room hn _ hres
  | resume _ _ hrm => exact h.resume hrm
  | close _ _ _ hrm => exact h.close hrm
  | sweep _ _ hfold => exact h.sweep hfold
  | idle | accept _ | wait _ _ _ | release _ _ _ => exact ⟨h.mapped, h.offline⟩

/-- It holds at the end of every run whose two counters stay in range. -/
theorem of_run {tr : History} {s : Server} (h : server.Run tr s)
    (hl : tr.logins < 2 ^ 31 - 10000) (hr : tr.roomsCreated < 2 ^ 31 - 1) : Linked s.core := by
  refine (core_invariant (P := fun c => WellBound c ∧ Numbered c ∧ Linked c)
    (C := fun c a => LoginInRange c a ∧ RoomInRange c a) ⟨.init, .init, .init⟩ ?_ h ?_).2.2
  · exact fun ⟨hw, hn, hP⟩ hC hs => ⟨hw.step hC.1 hs, hn.step hC.2 hs, hP.step hw hn hs⟩
  · exact fun x hx => ⟨loginsInRange h hl x hx, roomsInRange h hr x hx⟩

/-- A player can be marked: the map leads to a room. -/
theorem mark_isOk (h : Linked c) (p : PlayerId) (conn : PlayerConnState) :
    ∃ rm, c.roomManager.mark p conn = .ok rm := by
  cases hp : c.roomManager.playerRoomMap.lookup p with
  | none => exact ⟨c.roomManager, by rw [RoomManager.mark, RoomManager.withRoom, hp]⟩
  | some r =>
    obtain ⟨room, -, hroom, -⟩ := h.mapped hp
    exact ⟨_, RoomManager.mark_of_lookup hp hroom conn⟩

/-- Players can be removed, one after the other. -/
theorem removePlayers_isOk {s : Server} (ps : List PlayerId)
    (h : ∀ {q r}, s.roomManager.playerRoomMap.lookup q = some r →
      s.roomManager.Seats s.playerManager.players q r) : ∃ s', s.removePlayers ps = .ok s' := by
  induction ps generalizing s with
  | nil => exact ⟨s, rfl⟩
  | cons p ps ih =>
    obtain ⟨rm, hrm⟩ := RoomManager.removePlayer_isOk (m := s.roomManager) (p := p) fun r hr =>
      let ⟨room, _, hroom, _⟩ := h hr
      ⟨room, hroom⟩
    have hexp : s.core.expire p = .ok { s.core with
        roomManager := rm
        playerStateManager := s.playerStateManager.removePlayer p } := by
      rw [Core.expire, show s.core.roomManager = s.roomManager from rfl, hrm]
      rfl
    rw [Server.removePlayers, hrm]
    exact ih fun hq => mapped_expire hexp h hq

/-- A sweep returns. -/
theorem step_sweep {s : Server} (h : Linked s.core) {order : List PlayerId}
    (horder : s.playerStateManager.states.Enumerates order) (now : Instant) :
    ∃ s', server.step s (.sweep order now) s' :=
  let ⟨s', hs'⟩ := removePlayers_isOk (s := s)
    (s.playerStateManager.getReconnectTimeoutPlayers order now.steady 30) h.mapped
  ⟨s', horder, hs'⟩

end Linked

/-- **The three views of a room member's connectivity agree.**  As long as neither
counter wraps around, the map of a player leads to a room with an entry for the player,
and the entry is `Online`, the player is in `players_`, and `PlayerStateManager` does
not hold the player `Offline`, all three or none. -/
theorem connectivity_agrees {tr : History} {s : Server} (h : server.Run tr s)
    (hl : tr.logins < 2 ^ 31 - 10000) (hr : tr.roomsCreated < 2 ^ 31 - 1) {p : PlayerId}
    {r : RoomId} (hp : s.roomManager.playerRoomMap.lookup p = some r) :
    ∃ room st, s.roomManager.getRoom r = some room ∧ room.playerStates.lookup p = some st ∧
      (st.connState = .online ↔ p ∈ s.playerManager.players) ∧
      (p ∈ s.playerManager.players ↔ ¬ s.core.Offline p) := by
  have hinv := Linked.of_run h hl hr
  obtain ⟨room, st, hroom, -, hst, hon⟩ := hinv.mapped hp
  refine ⟨room, st, (RoomManager.getRoom_eq_some ..).2 hroom, hst, hon,
    (WellBound.of_run h hl).online, fun hoff => ?_⟩
  by_contra hout
  exact hoff (hinv.offline (Finmap.mem_of_lookup_eq_some hp) hout)

/-- The first of two matched players, after its session was closed. -/
theorem connectivity_agrees_closed : ∃ s : Server,
    s.roomManager.playerRoomMap.lookup 10000 = some 1 ∧
    ∃ room st, s.roomManager.getRoom 1 = some room ∧ room.playerStates.lookup 10000 = some st ∧
      (st.connState = .online ↔ 10000 ∈ s.playerManager.players) ∧
      (10000 ∈ s.playerManager.players ↔ ¬ s.core.Offline 10000) := by
  obtain ⟨tr, s, h, hl, hr, hp⟩ := Server.exists_run
    (Q := fun tr s => tr.logins < 2 ^ 31 - 10000 ∧ tr.roomsCreated < 2 ^ 31 - 1 ∧
      s.roomManager.playerRoomMap.lookup 10000 = some 1)
    (Server.pairUp ++ [.close 0 {}]) (by decide +kernel)
  exact ⟨s, hp, connectivity_agrees h hl hr hp⟩

end GameServer
