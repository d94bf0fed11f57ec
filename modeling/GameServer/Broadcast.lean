/-
# Broadcasting in a room

`Room::broadcast` looks every id of `player_ids_` up in `PlayerManager` and calls
through what it finds.  It does not look at `player_states_`, where the close callback
marks a member `Offline`, although `Room` has `is_player_disconnected` for that; and
the callback erases the player from `players_` at once, while the room keeps the id
until a sweep.  So the first chat after a member's connection closed throws
`std::out_of_range`, and nothing catches it.

`Server.Delivers` is what a broadcast should do, and `Core.Reaches` the condition on
the managers under which it does (`delivers_iff`).  `broadcast_delivers_iff` says for
which runs that is so throughout: those that never close or lose the session of a room
member (`Core.KeepsRooms`).
-/

import GameServer.Connectivity

namespace GameServer

/-! ### What a broadcast does -/

section Count
variable {α β : Type*} [DecidableEq β] {f : α → β} {l : List α} {a a' : α} {b : β}

theorem eq_of_count_map_eq_one (h : (l.map f).count b = 1) (ha : a ∈ l) (ha' : a' ∈ l)
    (hf : f a = b) (hf' : f a' = b) : a' = a := by
  by_contra hne
  obtain ⟨l₁, l₂, rfl⟩ := List.append_of_mem ha
  rw [List.map_append, List.map_cons, List.count_append, hf, List.count_cons_self] at h
  have hmem : a' ∈ l₁ ∨ a' ∈ l₂ := by simpa [hne] using ha'
  rcases hmem with hmem | hmem
  · have := List.count_pos_iff.2 (hf' ▸ List.mem_map_of_mem (f := f) hmem)
    omega
  · have := List.count_pos_iff.2 (hf' ▸ List.mem_map_of_mem (f := f) hmem)
    omega

theorem count_map_eq_one (hnd : l.Nodup) (ha : a ∈ l) (hf : f a = b)
    (huniq : ∀ a' ∈ l, f a' = b → a' = a) : (l.map f).count b = 1 := by
  obtain ⟨l₁, l₂, rfl⟩ := List.append_of_mem ha
  have hout : ∀ l', a ∉ l' → l' ⊆ l₁ ++ a :: l₂ → (l'.map f).count b = 0 := fun l' ha' hsub => by
    refine List.count_eq_zero.2 fun hmem => ?_
    obtain ⟨a', ha'', hf'⟩ := List.mem_map.1 hmem
    exact ha' (huniq a' (hsub ha'') hf' ▸ ha'')
  have hnd' := List.nodup_middle.1 hnd
  rw [List.nodup_cons, List.mem_append, not_or] at hnd'
  rw [List.map_append, List.map_cons, List.count_append, hf, List.count_cons_self,
    hout l₁ hnd'.1.1 (List.subset_append_left ..),
    hout l₂ hnd'.1.2 fun x hx => List.mem_append_right _ (List.mem_cons_of_mem _ hx)]

end Count

/-- The sessions a broadcast should reach: those of the members not marked `Offline`. -/
def Server.recipients (s : Server) (room : Room) : List SessionId :=
  (room.playerIds.filter fun p => !room.isPlayerDisconnected p).map s.sessionOf

/-- A chat in the room fails on no lookup, sends one notification to the session of each
member that is not marked `Offline` and nothing else, and so exactly one to each open
session bound to a member. -/
def Server.Delivers (s : Server) (room : Room) : Prop :=
  ∀ playerId text, ∃ s', s.roomHandleChat room playerId text = .ok s' ∧
    s'.sent = s.sent ++ (s.recipients room).map (fun sid => (sid, .chatNotify
      { roomId := room.roomId, playerId := playerId, text := text })) ∧
    ∀ p ∈ room.playerIds, ∀ sid, s.core.Bound sid p → (s.recipients room).count sid = 1

/-- The members of the room resolve, none of them is marked `Offline`, and a session
bound to one of them is not also the one `players_` has for another. -/
structure Core.Reaches (c : Core) (room : Room) : Prop where
  resolves : ∀ p ∈ room.playerIds, c.Resolves p
  online : ∀ p ∈ room.playerIds, room.isPlayerDisconnected p = false
  once : ∀ p ∈ room.playerIds, ∀ q ∈ room.playerIds, ∀ sid, c.Bound sid p →
    c.playerManager.players.lookup q = some sid → q = p

theorem sessionOf_eq {s : Server} {p : PlayerId} {sid : SessionId}
    (h : s.core.playerManager.players.lookup p = some sid) : s.sessionOf p = sid := by
  rw [Server.sessionOf, show s.playerManager.players.lookup p = some sid from h, Option.getD_some]

/-- **A broadcast does what it should exactly when the managers agree on the members.** -/
theorem delivers_iff {s : Server} {room : Room} {r : RoomId} (hw : WellBound s.core)
    (hf : room.Formed r) : s.Delivers room ↔ s.core.Reaches room := by
  have hbound : ∀ p ∈ room.playerIds, ∀ sid, s.core.Bound sid p → s.sessionOf p = sid :=
    fun p hp sid hb => sessionOf_eq (hw.bound hb (hf.pos p hp).ne')
  constructor
  · intro h
    obtain ⟨s', hok, hsent, honce⟩ := h 0 []
    have hres : ∀ p ∈ room.playerIds, s.core.Resolves p := Server.resolves_of_sendToAll hok
    have hon : ∀ p ∈ room.playerIds, room.isPlayerDisconnected p = false := by
      rw [Server.roomHandleChat, Server.broadcast, Server.sendToAll_of_resolves hres] at hok
      rw [← Except.ok.inj hok] at hsent
      have hlen := congrArg List.length (List.append_cancel_left hsent)
      rw [Server.recipients, List.length_map, List.length_map, List.length_map] at hlen
      intro p hp
      have := List.length_filter_eq_length_iff.1 hlen.symm p hp
      simpa using this
    have hrec : s.recipients room = room.playerIds.map s.sessionOf := by
      rw [Server.recipients, List.filter_eq_self.2 fun p hp => by rw [hon p hp]; rfl]
    exact ⟨hres, hon, fun p hp q hq sid hb hlk =>
      eq_of_count_map_eq_one (hrec ▸ honce p hp sid hb) hp hq (hbound p hp sid hb)
        (sessionOf_eq hlk)⟩
  · intro h playerId text
    have hrec : s.recipients room = room.playerIds.map s.sessionOf := by
      rw [Server.recipients, List.filter_eq_self.2 fun p hp => by rw [h.online p hp]; rfl]
    refine ⟨_, Server.sendToAll_of_resolves h.resolves _, ?_, fun p hp sid hb => ?_⟩
    · rw [hrec, List.map_map]
      rfl
    · rw [hrec]
      refine count_map_eq_one hf.nodup hp (hbound p hp sid hb) fun q hq hqs => ?_
      obtain ⟨sid', hlk, -⟩ := h.resolves q hq
      exact h.once p hp q hq sid hb ((sessionOf_eq hlk).symm.trans hqs ▸ hlk)

/-! ### Which steps keep the rooms reachable -/

/-- Every room's members are reached. -/
def Core.AllReach (c : Core) : Prop :=
  ∀ r room, c.roomManager.getRoom r = some room → c.Reaches room

/-- The step does not take a session from a room member: it closes no open session whose
player is a member of a room, destroys no session object that `players_` still has for a
member, and makes no room for a player together with another whom `players_` maps to the
same open session. -/
def Core.KeepsRooms (c : Core) : Act → Prop
  | .close sid _ => ∀ p, c.Bound sid p → ∀ r room, c.roomManager.getRoom r = some room →
      p ∉ room.playerIds
  | .release sid => ∀ r room, c.roomManager.getRoom r = some room → ∀ p ∈ room.playerIds,
      c.playerManager.players.lookup p ≠ some sid
  | .room _ ps => c.roomManager.nextRoomId ∉ c.roomManager.rooms →
      ∀ p ∈ ps, ∀ q ∈ ps, ∀ sid, c.Bound sid p →
        c.playerManager.players.lookup q = some sid → q = p
  | _ => True

namespace Core

variable {c c' : Core}

theorem Reaches.mono {room room' : Room} (h : c.Reaches room) (hsub : room'.playerIds ⊆ room.playerIds)
    (hst : ∀ p ∈ room'.playerIds, room'.playerStates.lookup p = room.playerStates.lookup p)
    (hpl : ∀ p ∈ room'.playerIds,
      c'.playerManager.players.lookup p = c.playerManager.players.lookup p)
    (hal : ∀ p ∈ room'.playerIds, ∀ sid, c.playerManager.players.lookup p = some sid →
      c.Alive sid → c'.Alive sid)
    (hb : ∀ p ∈ room'.playerIds, ∀ sid, c'.Bound sid p → c.Bound sid p) : c'.Reaches room' := by
  refine ⟨fun p hp => ?_, fun p hp => ?_, fun p hp q hq sid hbp hlk => ?_⟩
  · obtain ⟨sid, hlk, halive⟩ := h.resolves p (hsub hp)
    exact ⟨sid, (hpl p hp).trans hlk, hal p hp sid hlk halive⟩
  · have hon := h.online p (hsub hp)
    rw [Room.isPlayerDisconnected] at hon ⊢
    rw [hst p hp]
    exact hon
  · exact h.once p (hsub hp) q (hsub hq) sid (hb p hp sid hbp) ((hpl q hq).symm.trans hlk)

/-- A member of a room that is reached is in `players_`. -/
theorem Reaches.mem_players {room : Room} (h : c.Reaches room) {p : PlayerId} (hp : p ∈ room.playerIds) :
    p ∈ c.playerManager.players :=
  let ⟨_, hlk, _⟩ := h.resolves p hp
  Finmap.mem_of_lookup_eq_some hlk

theorem AllReach.login (h : c.AllReach) (hw : WellBound c) (sid : SessionId) :
    AllReach { c with
      nextPlayerId := toInt (c.nextPlayerId + 1)
      sessions := c.sessions.modify sid fun ses =>
        { ses with
          playerId := c.nextPlayerId
          token := LoginService.generateToken c.nextPlayerId }
      playerManager := c.playerManager.addPlayer c.nextPlayerId sid
      connectionManager := c.connectionManager.addSession sid } := by
  intro r room hr
  have hreach := h r room hr
  have hne : ∀ p ∈ room.playerIds, p ≠ c.nextPlayerId := fun p hp e =>
    hw.next_not_known (e ▸ hw.player_known (hreach.mem_players hp))
  refine hreach.mono (List.Subset.refl _) (fun _ _ => rfl)
    (fun p hp => Finmap.lookup_insert_of_ne _ (hne p hp))
    (fun p hp sid' _ => (alive_rebind rfl sid').2) fun p hp sid' hb => ?_
  rw [bound_rebind rfl] at hb
  split_ifs at hb
  · exact absurd hb.2 (hne p hp)
  · exact hb

/-- A room is made of players who resolve, and starts with all of them `Online`. -/
theorem AllReach.room (h : c.AllReach) {p₀ : PlayerId} {ps : List PlayerId} (q : MatchQueue)
    (hC : c.KeepsRooms (.room p₀ ps)) (hres : ∀ x ∈ ps, c.Resolves x) :
    AllReach { c with matchQueue := q, roomManager := c.roomManager.insertRoom ps } := by
  intro r room hr
  rcases RoomManager.exists_room_of_insertRoom ((RoomManager.getRoom_eq_some ..).1 hr) with
    hold | ⟨rfl, hfree, heq⟩
  · have hreach := h r room ((RoomManager.getRoom_eq_some ..).2 hold)
    exact ⟨hreach.resolves, hreach.online, hreach.once⟩
  · obtain rfl := Option.some.inj heq
    refine ⟨hres, fun p hp => ?_, hC ((Table.not_mem_iff ..).2 hfree)⟩
    have hp : p ∈ ps := hp
    simp [Room.isPlayerDisconnected, Room.lookup_new, hp]

/-- Marking somebody who is in no room changes nothing that is known of the members. -/
theorem exists_room_of_mark_other {p : PlayerId} {conn : PlayerConnState} {rm : RoomManager}
    (hrm : c.roomManager.mark p conn = .ok rm)
    (hout : ∀ r room, c.roomManager.getRoom r = some room → p ∉ room.playerIds) {r : RoomId}
    {room' : Room} (hr : rm.getRoom r = some room') :
    ∃ room, c.roomManager.getRoom r = some room ∧ room'.playerIds = room.playerIds ∧
      ∀ q ∈ room'.playerIds, room'.playerStates.lookup q = room.playerStates.lookup q := by
  rcases RoomManager.exists_room_of_mark hrm ((RoomManager.getRoom_eq_some ..).1 hr) with
    hold | ⟨room, hold, heq⟩
  · exact ⟨room', (RoomManager.getRoom_eq_some ..).2 hold, rfl, fun _ _ => rfl⟩
  · obtain rfl := Option.some.inj heq
    have hold := (RoomManager.getRoom_eq_some ..).2 hold
    refine ⟨room, hold, rfl, fun q hq => (Room.lookup_mark ..).trans (if_neg ?_)⟩
    rintro rfl
    exact hout r room hold hq

theorem AllReach.resume (h : c.AllReach) (hw : WellBound c) {sid : SessionId} {p : PlayerId}
    {token : Bytes} {st : PlayerRuntimeState} {rm : RoomManager} (hst : c.Resumable p token st)
    (hrm : c.roomManager.mark p .online = .ok rm) :
    AllReach { c with
      sessions := c.sessions.modify sid fun ses => { ses with playerId := p, token := token }
      playerManager := c.playerManager.addPlayer p sid
      connectionManager := c.connectionManager.addSession sid
      roomManager := rm
      playerStateManager := c.playerStateManager.markOnline p } := by
  -- Nobody who can resume is a member: members are in `players_`, so not `Offline`.
  have hout : ∀ r room, c.roomManager.getRoom r = some room → p ∉ room.playerIds :=
    fun r room hr hp => hw.online ((h r room hr).mem_players hp) ⟨st, hst.1, hst.2.2⟩
  intro r room' hr
  obtain ⟨room, hroom, hids, hstates⟩ := exists_room_of_mark_other hrm hout hr
  have hne : ∀ q ∈ room'.playerIds, q ≠ p := fun q hq e => hout r room hroom (hids ▸ e ▸ hq)
  refine (h r room hroom).mono (hids ▸ List.Subset.refl _) hstates
    (fun q hq => Finmap.lookup_insert_of_ne _ (hne q hq))
    (fun q _ sid' _ => (alive_rebind rfl sid').2) fun q hq sid' hb => ?_
  rw [bound_rebind rfl] at hb
  split_ifs at hb
  · exact absurd hb.2 (hne q hq)
  · exact hb

theorem AllReach.close (h : c.AllReach) {sid : SessionId} {ses : Session} {now : Time}
    {rm : RoomManager} (hses : c.sessions.lookup sid = some ses) (hopen : ses.closed = false)
    (hrm : c.roomManager.mark ses.playerId .offline = .ok rm) (hC : c.KeepsRooms (.close sid now)) :
    AllReach { c with
      sessions := c.sessions.modify sid fun ses => { ses with closed := true }
      matchQueue := c.matchQueue.leave ses.playerId
      playerManager := c.playerManager.removePlayer ses.playerId
      connectionManager := c.connectionManager.removeSession sid
      playerStateManager := (c.playerStateManager.saveOnline ses.playerId
        (c.roomManager.getRoomIdByPlayer ses.playerId) ses.token).markDisconnected ses.playerId now
      roomManager := rm } := by
  have hout := hC ses.playerId ⟨ses, hses, hopen, rfl⟩
  intro r room' hr
  obtain ⟨room, hroom, hids, hstates⟩ := exists_room_of_mark_other hrm hout hr
  exact (h r room hroom).mono (hids ▸ List.Subset.refl _) hstates
    (fun q hq => Finmap.lookup_erase_ne fun e => hout r room hroom (hids ▸ e ▸ hq))
    (fun q _ sid' _ => (alive_close rfl sid').2) fun q _ sid' hb => ((bound_close rfl ..).1 hb).2

theorem AllReach.release (h : c.AllReach) {sid : SessionId} (hC : c.KeepsRooms (.release sid)) :
    AllReach { c with
      sessions := c.sessions.modify sid fun ses => { ses with alive := false } } := by
  intro r room hr
  refine (h r room hr).mono (List.Subset.refl _) (fun _ _ => rfl) (fun _ _ => rfl)
    (fun p hp sid' hlk halive => (alive_release rfl sid').2 ⟨?_, halive⟩)
    fun p _ sid' => (bound_release rfl ..).1
  rintro rfl
  exact hC r room hr p hp hlk

theorem AllReach.expire (h : c.AllReach) {p : PlayerId} (hexp : c.expire p = .ok c') :
    c'.AllReach := by
  obtain ⟨rm, hrm, rfl⟩ := expire_ok hexp
  intro r room' hr
  rcases RoomManager.exists_room_of_removePlayer hrm ((RoomManager.getRoom_eq_some ..).1 hr) with
    hold | ⟨room, hold, heq, -⟩
  · have hreach := h r room' ((RoomManager.getRoom_eq_some ..).2 hold)
    exact ⟨hreach.resolves, hreach.online, hreach.once⟩
  · obtain rfl := Option.some.inj heq
    exact (h r room ((RoomManager.getRoom_eq_some ..).2 hold)).mono (List.erase_subset ..)
      (fun _ _ => rfl) (fun _ _ => rfl) (fun _ _ _ _ => id) fun _ _ _ => id

/-- **A step that meets the condition keeps the rooms reached.** -/
theorem AllReach.step {a : Act} (h : c.AllReach) (hw : WellBound c) (hf : Formed c)
    (hC : c.KeepsRooms a) (hs : CoreStep c a c') : c'.AllReach := by
  cases hs with
  | accept hsid =>
    intro r room hr
    refine (h r room hr).mono (List.Subset.refl _) (fun _ _ => rfl) (fun _ _ => rfl)
      (fun _ _ sid' _ halive => (alive_insert rfl sid').2 (.inr halive)) fun p hp sid' hb => ?_
    rw [bound_insert rfl] at hb
    split_ifs at hb
    · exact absurd hb ((hf.getRoom hr).pos p hp).ne'
    · exact hb
  | login _ => exact h.login hw _
  | room _ _ _ hres => exact h.room _ hC hres
  | resume _ hst hrm => exact h.resume hw hst hrm
  | close hses hopen _ hrm => exact h.close hses hopen hrm hC
  | release _ _ _ => exact h.release hC
  | sweep _ _ hfold => exact sweep_induction hfold h fun hP _ hexp => hP.expire hexp
  | idle => exact h
  | wait _ _ _ =>
    exact fun r room hr => ⟨(h r room hr).resolves, (h r room hr).online, (h r room hr).once⟩

/-- **A step that does not meet it leaves a room with a member who is not reached.** -/
theorem AllReach.keepsRooms {a : Act} (h : c'.AllReach) (hs : CoreStep c a c') : c.KeepsRooms a := by
  cases hs with
  | room _ _ _ _ =>
    intro hfree p hp q hq sid hb hlk
    have hroom := h c.roomManager.nextRoomId _ ((RoomManager.getRoom_eq_some ..).2
      ((RoomManager.lookup_insertRoom ((Table.not_mem_iff ..).1 hfree) _ _).trans (if_pos rfl)))
    exact hroom.once p hp q hq sid hb hlk
  | @close sid ses now rm hses _ _ hrm =>
    rintro p ⟨ses', hses', -, rfl⟩ r room hr hp
    obtain rfl := Option.some.inj (hses.symm.trans hses')
    -- The member stays in the room and is gone from `players_`.
    obtain ⟨room', hr', hids⟩ : ∃ room', rm.getRoom r = some room' ∧
        room'.playerIds = room.playerIds := by
      have hlk := RoomManager.lookup_mark hrm r
      rw [(RoomManager.getRoom_eq_some ..).1 hr, Option.map_some] at hlk
      split_ifs at hlk
      · exact ⟨_, (RoomManager.getRoom_eq_some ..).2 hlk, rfl⟩
      · exact ⟨_, (RoomManager.getRoom_eq_some ..).2 hlk, rfl⟩
    obtain ⟨sid', hlk, -⟩ := (h r room' hr').resolves ses.playerId (hids ▸ hp)
    rw [PlayerManager.removePlayer, Finmap.lookup_erase] at hlk
    cases hlk
  | @release sid ses _ _ _ =>
    intro r room hr p hp hlk
    obtain ⟨sid', hlk', halive⟩ := (h r room hr).resolves p hp
    obtain rfl := Option.some.inj (hlk.symm.trans hlk')
    exact ((alive_release rfl sid).1 halive).1 rfl
  | idle | accept _ | login _ | wait _ _ _ | resume _ _ _ | sweep _ _ _ => trivial

end Core

/-- **When broadcasting works.**  As long as fewer than `2 ^ 31 - 10000` logins were
accepted, every room's broadcast does what it should in every state of a run exactly
when each step of the run keeps the sessions of the room members. -/
theorem broadcast_delivers_iff {tr : History} {s : Server} (h : server.Run tr s)
    (hn : tr.logins < 2 ^ 31 - 10000) :
    (∀ t ∈ Transition.System.visited tr s, ∀ r room, t.roomManager.getRoom r = some room →
        t.Delivers room) ↔
      ∀ x ∈ tr, x.1.core.KeepsRooms (x.1.act x.2) := by
  have hiff : ∀ {tr' : History} {t : Server}, server.Run tr' t → tr'.logins < 2 ^ 31 - 10000 →
      ((∀ r room, t.roomManager.getRoom r = some room → t.Delivers room) ↔ t.core.AllReach) :=
    fun hrun hn' => forall₃_congr fun r room hr =>
      delivers_iff (WellBound.of_run hrun hn') ((Formed.of_run hrun).getRoom hr)
  refine Transition.System.Run.forall_visited_iff (P := fun t : Server =>
      ∀ r room, t.roomManager.getRoom r = some room → t.Delivers room)
    (C := fun t e => t.core.KeepsRooms (t.act e)) (fun r room hr => ?_) h
    fun {tr' t e t'} hsuf hrun hP hs => ?_
  · simp [RoomManager.getRoom, server] at hr
  have hle : History.logins ((t, e) :: tr') ≤ tr.logins := logins_le_of_suffix hsuf
  have hn' : History.logins tr' < 2 ^ 31 - 10000 :=
    lt_of_le_of_lt (logins_le_of_suffix (List.suffix_cons ..)) (lt_of_le_of_lt hle hn)
  rw [hiff hrun hn'] at hP
  rw [hiff (hrun.cons hs) (lt_of_le_of_lt hle hn)]
  exact ⟨fun h' => h'.keepsRooms (Server.step_core hs), fun hC =>
    hP.step (WellBound.of_run hrun hn') (Formed.of_run hrun) hC (Server.step_core hs)⟩

/-- The run in which two players log in and are matched. -/
theorem broadcast_delivers_iff_pairUp : ∃ tr s, server.Run tr s ∧ tr.length = 6 ∧
    ((∀ t ∈ Transition.System.visited tr s, ∀ r room, t.roomManager.getRoom r = some room →
        t.Delivers room) ↔
      ∀ x ∈ tr, x.1.core.KeepsRooms (x.1.act x.2)) := by
  obtain ⟨tr, s, h, hn, hlen⟩ := Server.exists_run
    (Q := fun tr _ => tr.logins < 2 ^ 31 - 10000 ∧ tr.length = 6) Server.pairUp (by decide +kernel)
  exact ⟨tr, s, h, hlen, broadcast_delivers_iff h hn⟩

/-- **A chat after a member's connection closed throws.**  Two players are matched, the
second closes, and the chat of the first, on its open session, ends in `out_of_range`. -/
theorem broadcast_throws : ∃ tr s room, server.Run tr s ∧ (∀ x ∈ tr, x.2.onOpen x.1) ∧
    s.roomManager.getRoom 1 = some room ∧ ¬ s.Delivers room ∧ s.core.Bound 0 10000 ∧
    faultOf (s.step (.request 0 (.chat { roomId := 1, text := [0x68] }) {})) =
      some .outOfRange := by
  obtain ⟨tr, s, h, hopen, ⟨room, hroom, hfail⟩, hb, hfault⟩ := Server.exists_run
    (Q := fun tr s => (∀ x ∈ tr, x.2.onOpen x.1) ∧
      (∃ room ∈ s.roomManager.getRoom 1, (s.roomHandleChat room 0 []).isOk = false) ∧
      s.core.Bound 0 10000 ∧
      faultOf (s.step (.request 0 (.chat { roomId := 1, text := [0x68] }) {})) = some .outOfRange)
    (Server.pairUp ++ [.close 1 {}]) (by decide +kernel)
  refine ⟨tr, s, room, h, hopen, hroom, fun hdel => ?_, hb, hfault⟩
  obtain ⟨s', hok, -⟩ := hdel 0 []
  rw [hok] at hfail
  cases hfail

end GameServer
