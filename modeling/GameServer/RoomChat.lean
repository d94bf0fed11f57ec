/-
# Where a chat goes

The protocol document and the README have a chat go to the room of its sender:
`session.player_id()`, then `get_room_by_player`, then the members.  `handle_chat` never
calls `get_room_by_player`.  It takes the room from the request, after it has counted the
score, and calls through what `get_room` returns, which is null for an unknown id;
`send_chat_failed`, which would answer the sender, has no caller.

`Server.ChatsInRoom` is what one ChatReq should do, and `chatsInRoom_iff` says when it does
in any reachable state: when its sender is in the room that it names, and every member still
has a session.
-/

import GameServer.Formation

namespace GameServer

/-- `get_session` finds a session object for the player, and it is still that player's. -/
def Core.Attends (c : Core) (p : PlayerId) : Prop :=
  ∃ sid ses, c.playerManager.players.lookup p = some sid ∧ c.sessions.lookup sid = some ses ∧
    ses.alive ∧ ses.playerId = p

instance (c : Core) (p : PlayerId) : Decidable (c.Attends p) :=
  decidable_of_iff (∃ sid ∈ c.playerManager.players.lookup p, ∃ ses ∈ c.sessions.lookup sid,
    ses.alive ∧ ses.playerId = p) <| by
      unfold Core.Attends
      simp only [Option.mem_def, exists_and_left]

/-- What a ChatReq on the session should do, without a fault.  From a player in a room, it sends
each member of that room one `ChatNotify` with that room and that player, and nothing else; from
anybody else it is answered by a failure alone, and changes no score. -/
structure Server.ChatsInRoom (s : Server) (sid : SessionId) (req : ChatReq) (now : Instant) :
    Prop where
  inRoom : ∀ room, (s.session sid).playerId ≠ 0 →
    s.roomManager.getRoomByPlayer (s.session sid).playerId = some room →
    ∃ s', server.step s (.request sid (.chat req) now) s' ∧
      s'.sent = s.sent ++ room.playerIds.map (fun p => (s.sessionOf p, .chatNotify
        { roomId := room.roomId, playerId := (s.session sid).playerId, text := req.text })) ∧
      ∀ p ∈ room.playerIds, s.core.Attends p
  noRoom : (s.session sid).playerId = 0 ∨
      s.roomManager.getRoomByPlayer (s.session sid).playerId = none →
    ∃ s' reason, server.step s (.request sid (.chat req) now) s' ∧
      s'.sent = s.sent ++ [(sid, .chatResp { code := 1, message := reason })] ∧
      ∀ p, (s'.playerStateRepository.loadPlayerState p).map PlayerState.score =
        (s.playerStateRepository.loadPlayerState p).map PlayerState.score

theorem Core.Attends.resolves {c : Core} {p : PlayerId} (h : c.Attends p) : c.Resolves p :=
  let ⟨sid, ses, hlk, hses, halive, _⟩ := h
  ⟨sid, hlk, ses, hses, halive⟩

/-- `get_room_by_player` finds a room under the id that it has. -/
theorem RoomManager.getRoom_of_byPlayer {m : RoomManager} {p : PlayerId} {room : Room}
    (h : m.getRoomByPlayer p = some room) : m.getRoom (m.getRoomIdByPlayer p) = some room := by
  unfold getRoomByPlayer at h
  split_ifs at h
  exact h

/-- **A chat that is handled** is never answered to its sender. -/
theorem Server.sent_chat_ne {s s' : Server} {sid : SessionId} {req : ChatReq} {now : Instant}
    (h : server.step s (.request sid (.chat req) now) s') (reply : ChatResp) :
    s'.sent ≠ s.sent ++ [(sid, .chatResp reply)] := by
  have h : ChatService.handleChat (s.received sid now) sid req = .ok s' := h.2
  obtain ⟨room, -, -, rfl⟩ := handleChat_ok h
  intro hsent
  have hsent := List.append_cancel_left (show s.sent ++ _ = s.sent ++ _ from hsent)
  cases hids : room.playerIds with
  | nil =>
    rw [hids] at hsent
    cases hsent
  | cons p ps =>
    rw [hids] at hsent
    exact absurd (Prod.mk.inj (List.cons.inj hsent).1).2 (by simp)

/-- **When a chat stays in the sender's room.**  In every reachable state, a ChatReq on a session
does what it should exactly when the player of the session is in a room, the request names that
room, and every member has a session object that is still the member's. -/
theorem chatsInRoom_iff {tr : History} {s : Server} (h : server.Run tr s) {sid : SessionId}
    (halive : s.alive sid) (req : ChatReq) (now : Instant) :
    s.ChatsInRoom sid req now ↔ (s.session sid).playerId ≠ 0 ∧ ∃ room,
      s.roomManager.getRoomByPlayer (s.session sid).playerId = some room ∧
        toInt req.roomId = room.roomId ∧ ∀ p ∈ room.playerIds, s.core.Attends p := by
  have hf := Formed.of_run h
  obtain ⟨p, hp⟩ : ∃ p, (s.session sid).playerId = p := ⟨_, rfl⟩
  constructor
  · intro hchat
    by_cases hroom : p = 0 ∨ s.roomManager.getRoomByPlayer p = none
    · obtain ⟨s', reason, hs, hsent, -⟩ := hchat.noRoom (hp ▸ hroom)
      exact absurd hsent (Server.sent_chat_ne hs _)
    · rw [not_or] at hroom
      obtain ⟨room, hroom'⟩ := Option.ne_none_iff_exists'.1 hroom.2
      rw [hp]
      refine ⟨hroom.1, room, hroom', ?_⟩
      obtain ⟨s', hs, hsent, hmem⟩ := hchat.inRoom room (hp ▸ hroom.1) (hp ▸ hroom')
      refine ⟨?_, hmem⟩
      have hs : ChatService.handleChat (s.received sid now) sid req = .ok s' := hs.2
      obtain ⟨named, hnamed, -, rfl⟩ := Server.handleChat_ok hs
      have hnamed : named.Formed (toInt req.roomId) := hf.getRoom hnamed
      have hsent := List.append_cancel_left (show s.sent ++ _ = s.sent ++ _ from hsent)
      -- Both rooms have members, so both lists begin with a notification of their room.
      cases hids : named.playerIds with
      | nil => exact absurd hids hnamed.ne_nil
      | cons q qs =>
        cases hids' : room.playerIds with
        | nil =>
          rw [hids, hids'] at hsent
          cases hsent
        | cons q' qs' =>
          rw [hids, hids'] at hsent
          have hmsg := Response.chatNotify.inj (Prod.mk.inj (List.cons.inj hsent).1).2
          rw [← hnamed.roomId_eq]
          exact congrArg ChatNotify.roomId hmsg
  · rintro ⟨hp0, room, hroom, hreq, hmem⟩
    refine ⟨fun room' _ hroom' => ?_, fun hno => ?_⟩
    · obtain rfl := Option.some.inj (hroom.symm.trans hroom')
      have hget := RoomManager.getRoom_of_byPlayer hroom
      have hnamed : s.roomManager.getRoom (toInt req.roomId) = some room := by
        rw [hreq, (hf.getRoom hget).roomId_eq]
        exact hget
      obtain ⟨s', hs'⟩ := Server.handleChat_of_resolves (s := s.received sid now) sid hnamed
        fun q hq => (hmem q hq).resolves
      refine ⟨s', ⟨⟨halive, trivial⟩, hs'⟩, ?_, hmem⟩
      obtain ⟨room', hroom'', -, rfl⟩ := Server.handleChat_ok hs'
      obtain rfl := Option.some.inj (hnamed.symm.trans hroom'')
      rfl
    · rcases hno with h0 | hnone
      · exact absurd h0 hp0
      · cases hroom.symm.trans hnone

/-- The first of two players who were matched chats in their room. -/
theorem chatsInRoom_iff_matched : ∃ tr s, server.Run tr s ∧
    s.ChatsInRoom 0 { roomId := 1, text := [0x68] } {} := by
  obtain ⟨tr, s, h, halive, hp, room, hroom, hreq, hmem⟩ := Server.exists_run
    (Q := fun _ s => s.alive 0 ∧ (s.session 0).playerId ≠ 0 ∧
      ∃ room ∈ s.roomManager.getRoomByPlayer (s.session 0).playerId,
        toInt 1 = room.roomId ∧ ∀ p ∈ room.playerIds, s.core.Attends p)
    Server.pairUp (by decide +kernel)
  exact ⟨tr, s, h, (chatsInRoom_iff h halive _ _).2 ⟨hp, room, hroom, hreq, hmem⟩⟩

/-- **Anybody chats in any room.**  Two players are matched and a third, in no room, names theirs:
both are notified and the third scores.  Naming room 7, which there is not, is a call through a
null pointer. -/
theorem chat_from_outside : ∃ tr s s', server.Run tr s ∧ (∀ x ∈ tr, x.2.onOpen x.1) ∧
    s.core.Bound 2 10002 ∧ s.roomManager.getRoomByPlayer 10002 = none ∧
    server.step s (.request 2 (.chat { roomId := 1, text := [0x68] }) {}) s' ∧
    s'.sent = s.sent ++ [
      (0, .chatNotify { roomId := 1, playerId := 10002, text := [0x68] }),
      (1, .chatNotify { roomId := 1, playerId := 10002, text := [0x68] })] ∧
    (s'.playerStateRepository.loadPlayerState 10002).map PlayerState.score = some 1 ∧
    ¬ s.ChatsInRoom 2 { roomId := 1, text := [0x68] } {} ∧
    faultOf (s.step (.request 2 (.chat { roomId := 7, text := [0x68] }) {})) =
      some .nullPointer := by
  obtain ⟨tr, s, s', h, hs, hopen, hb, hp, hroom, hsent, hscore, hfault⟩ := Server.exists_step
    (Q := fun tr s s' => (∀ x ∈ tr, x.2.onOpen x.1) ∧ s.core.Bound 2 10002 ∧
      (s.session 2).playerId = 10002 ∧ s.roomManager.getRoomByPlayer 10002 = none ∧
      s'.sent = s.sent ++ [
        (0, .chatNotify { roomId := 1, playerId := 10002, text := [0x68] }),
        (1, .chatNotify { roomId := 1, playerId := 10002, text := [0x68] })] ∧
      (s'.playerStateRepository.loadPlayerState 10002).map PlayerState.score = some 1 ∧
      faultOf (s.step (.request 2 (.chat { roomId := 7, text := [0x68] }) {})) =
        some .nullPointer)
    (Server.pairUp ++ [.accept 2 {}, .request 2 (.login { username := [0x63] }) {}])
    (.request 2 (.chat { roomId := 1, text := [0x68] }) {}) (by decide +kernel)
  refine ⟨tr, s, s', h, hopen, hb, hroom, hs, hsent, hscore, fun hchat => ?_, hfault⟩
  rw [← hp] at hroom
  obtain ⟨s₁, reason, hs₁, hsent₁, -⟩ := hchat.noRoom (.inr hroom)
  exact Server.sent_chat_ne hs₁ _ hsent₁

end GameServer
