/-
# The server refines its core

Each handler is described by one equation for the state it leaves and the conditions
under which it returns at all: `sendToAll_of_resolves` and `createRoom_ok` for what
is sent, `handleMatch_ok`, `handleReconnect_ok`, `handleChat_ok`, `closeCallback_ok`
for the handlers, `removePlayers_ok` for the loop of a sweep.  `handled_of_step` puts
them together: `Handled` has one case for each way in which an event can be handled,
with the act it is on the core and the state it leaves.  That what an event does to the
core is the step of `CoreStep` which `Server.act` names (`step_core`), and what it does
to any other part of the state, is read off these cases.
-/

import GameServer.Core

namespace GameServer
/-- The messages to one session, of several. -/
theorem sent_cons (i j : SessionId) (msg : Response) (msgs : List (SessionId × Response)) :
    (((i, msg) :: msgs).filter fun x => x.1 = j).map Prod.snd =
      (if i = j then [msg] else []) ++ (msgs.filter fun x => x.1 = j).map Prod.snd := by
  rw [List.filter_cons]
  by_cases h : i = j
  · simp only [h, decide_true, if_true, List.map_cons, List.cons_append, List.nil_append]
  · simp only [h, decide_false, Bool.false_eq_true, if_false, List.nil_append]

namespace Server

/-! ### Sending -/

/-- The state after messages were handed to sessions. -/
def sendEach (s : Server) (msgs : List (SessionId × Response)) : Server :=
  { s with sent := s.sent ++ msgs, metrics := ServerMetrics.incrSendPacket^[msgs.length] s.metrics }

theorem sentTo_append {s s' : Server} {msgs : List (SessionId × Response)}
    (h : s'.sent = s.sent ++ msgs) (i : SessionId) :
    s'.sentTo i = s.sentTo i ++ (msgs.filter fun x => x.1 = i).map Prod.snd := by
  rw [sentTo, h, List.filter_append, List.map_append]
  rfl

/-- The session that `players_` has for a player. -/
def sessionOf (s : Server) (p : PlayerId) : SessionId := (s.playerManager.players.lookup p).getD 0

theorem sendEach_nil (s : Server) : s.sendEach [] = s := by
  simp [sendEach]

theorem sendEach_send (s : Server) (sid : SessionId) (msg : Response)
    (msgs : List (SessionId × Response)) :
    (s.send sid msg).sendEach msgs = s.sendEach ((sid, msg) :: msgs) := by
  simp [sendEach, send]

theorem alive_iff (s : Server) (sid : SessionId) : s.alive sid = true ↔ s.core.Alive sid := by
  simp only [alive, Core.Alive, core]
  cases s.sessions.lookup sid <;> simp

/-- **Sending to a player** finds the session in `players_`, and fails exactly when
the player does not resolve. -/
theorem sendToPlayer_of_resolves {s : Server} {p : PlayerId} (h : s.core.Resolves p)
    (msg : Response) : s.sendToPlayer p msg = .ok (s.send (s.sessionOf p) msg) := by
  obtain ⟨sid, hsid, halive⟩ := h
  have hlk : s.playerManager.players.lookup p = some sid := hsid
  have hof : s.sessionOf p = sid := by rw [sessionOf, hlk, Option.getD_some]
  rw [sendToPlayer, getSession, PlayerManager.getSession, hlk, hof]
  simp [(s.alive_iff sid).2 halive]

theorem resolves_of_sendToPlayer {s s' : Server} {p : PlayerId} {msg : Response}
    (h : s.sendToPlayer p msg = .ok s') : s.core.Resolves p := by
  rw [sendToPlayer, getSession, PlayerManager.getSession] at h
  cases hlk : s.playerManager.players.lookup p with
  | none => simp [hlk, crash] at h
  | some sid =>
    by_cases halive : s.alive sid = true
    · exact ⟨sid, hlk, (s.alive_iff sid).1 halive⟩
    · simp [hlk, halive, crash] at h

/-- **Sending to several players** sends one message for each of them, in order. -/
theorem sendToAll_of_resolves {s : Server} {ps : List PlayerId}
    (h : ∀ p ∈ ps, s.core.Resolves p) (msg : Response) :
    s.sendToAll msg ps = .ok (s.sendEach (ps.map fun p => (s.sessionOf p, msg))) := by
  induction ps generalizing s with
  | nil => rw [List.map_nil, sendEach_nil, sendToAll]
  | cons p ps ih =>
    rw [List.forall_mem_cons] at h
    rw [sendToAll, sendToPlayer_of_resolves h.1]
    have hrest := ih (s := s.send (s.sessionOf p) msg) h.2
    simp only [hrest, sendEach_send, List.map_cons]
    rfl

theorem resolves_of_sendToAll {s s' : Server} {ps : List PlayerId} {msg : Response}
    (h : s.sendToAll msg ps = .ok s') : ∀ p ∈ ps, s.core.Resolves p := by
  induction ps generalizing s with
  | nil => exact fun _ hp => absurd hp List.not_mem_nil
  | cons p ps ih =>
    rw [sendToAll] at h
    cases hp : s.sendToPlayer p msg with
    | error c => simp [hp] at h
    | ok s₁ =>
      have hres := resolves_of_sendToPlayer hp
      rw [sendToPlayer_of_resolves hres] at hp
      obtain rfl := Except.ok.inj hp
      rw [sendToPlayer_of_resolves hres] at h
      exact List.forall_mem_cons.2 ⟨hres, ih (s := s.send (s.sessionOf p) msg) h⟩

/-- The room and the map entries, the notifications, and the players' records. -/
theorem createRoom_ok {s s' : Server} {ps : List PlayerId} (h : s.createRoom ps = .ok s') :
    (∀ p ∈ ps, s.core.Resolves p) ∧
      s' = { (s.sendEach (ps.map fun p => (s.sessionOf p,
          .roomCreatedNotify { roomId := s.roomManager.nextRoomId, players := ps }))) with
        roomManager := s.roomManager.insertRoom ps
        playerStateRepository :=
          saveRoomId s.playerStateRepository s.roomManager.nextRoomId ps } := by
  rw [createRoom] at h
  cases hall : ({ s with roomManager := s.roomManager.insertRoom ps } : Server).sendToAll
      (.roomCreatedNotify { roomId := s.roomManager.nextRoomId, players := ps }) ps with
  | error c => simp [hall] at h
  | ok s₁ =>
    have hres := resolves_of_sendToAll hall
    rw [sendToAll_of_resolves hres] at hall
    obtain rfl := Except.ok.inj hall
    rw [sendToAll_of_resolves hres] at h
    exact ⟨hres, (Except.ok.inj h).symm⟩

/-- Making a room returns when its players resolve. -/
theorem createRoom_of_resolves {s : Server} {ps : List PlayerId}
    (h : ∀ p ∈ ps, s.core.Resolves p) : ∃ s', s.createRoom ps = .ok s' := by
  have hall := sendToAll_of_resolves (s := { s with roomManager := s.roomManager.insertRoom ps }) h
    (.roomCreatedNotify { roomId := s.roomManager.nextRoomId, players := ps })
  rw [createRoom, hall]
  exact ⟨_, rfl⟩

/-! ### The refinement -/

/-- The records after a chat of the player. -/
def scored (s : Server) (p : PlayerId) : MemoryPlayerStateRepository :=
  (RankingService.addScore s p 1).playerStateRepository

/-- The score is counted on the records alone. -/
theorem scored_congr {s s' : Server} (h : s'.playerStateRepository = s.playerStateRepository)
    (p : PlayerId) : s'.scored p = s.scored p := by
  simp only [scored, RankingService.addScore, h]
  cases s.playerStateRepository.loadPlayerState p with
  | none => exact h
  | some st => rfl

theorem addScore_frame (s : Server) (m : ServerMetrics) (p : PlayerId) :
    RankingService.addScore { s with metrics := m } p 1 =
      { s with metrics := m, playerStateRepository := s.scored p } := by
  unfold scored RankingService.addScore
  dsimp only
  cases s.playerStateRepository.loadPlayerState p <;> rfl

/-- **A chat** sends one notification for each id of the room, all of which resolve. -/
theorem handleChat_ok {s s' : Server} {sid : SessionId} {req : ChatReq}
    (h : ChatService.handleChat s sid req = .ok s') :
    ∃ room, s.roomManager.getRoom (toInt req.roomId) = some room ∧
      (∀ p ∈ room.playerIds, s.core.Resolves p) ∧ s' = ({ s with
        metrics := s.metrics.incrChatReq
        playerStateRepository := s.scored (s.session sid).playerId } : Server).sendEach
          (room.playerIds.map fun p => (s.sessionOf p, .chatNotify
            { roomId := room.roomId, playerId := (s.session sid).playerId, text := req.text })) := by
  simp only [ChatService.handleChat, addScore_frame] at h
  cases hroom : s.roomManager.getRoom (toInt req.roomId) with
  | none => simp [hroom, crash] at h
  | some room =>
    simp only [hroom, roomHandleChat, broadcast] at h
    have hres := resolves_of_sendToAll h
    rw [sendToAll_of_resolves hres] at h
    exact ⟨room, rfl, hres, (Except.ok.inj h).symm⟩

/-- The handler returns when there is such a room and its ids resolve. -/
theorem handleChat_of_resolves {s : Server} (sid : SessionId) {req : ChatReq} {room : Room}
    (hroom : s.roomManager.getRoom (toInt req.roomId) = some room)
    (hres : ∀ p ∈ room.playerIds, s.core.Resolves p) :
    ∃ s', ChatService.handleChat s sid req = .ok s' := by
  simp only [ChatService.handleChat, addScore_frame, hroom, roomHandleChat, broadcast]
  exact ⟨_, sendToAll_of_resolves (s := { s with
    metrics := s.metrics.incrChatReq
    playerStateRepository := s.scored (s.session sid).playerId }) hres _⟩

/-- **A MatchReq** is refused, or lets its player wait, or makes a room. -/
theorem handleMatch_ok {s s' : Server} {sid : SessionId} {req : MatchReq} {p : PlayerId}
    (hp : toInt req.playerId = p) (h : MatchService.handleMatch s sid req = .ok s') :
    ((p ≤ 0 ∨ p ∈ s.matchQueue.inQueue) ∧ ∃ reason, s' = MatchService.sendMatchFailure
        { s with metrics := s.metrics.incrMatchReq } sid reason) ∨
      0 < p ∧ p ∉ s.matchQueue.inQueue ∧
        (((s.core.popped p).1 = [] ∧ s' = { MatchService.sendMatchSuccess
            { s with metrics := s.metrics.incrMatchReq } sid with
              matchQueue := (s.core.popped p).2 }) ∨
          (s.core.popped p).1 ≠ [] ∧ (∀ x ∈ (s.core.popped p).1, s.core.Resolves x) ∧
            s' = { (MatchService.sendMatchSuccess { s with metrics := s.metrics.incrMatchReq }
                sid).sendEach ((s.core.popped p).1.map fun x => (s.sessionOf x, .roomCreatedNotify
                  { roomId := s.roomManager.nextRoomId, players := (s.core.popped p).1 })) with
              matchQueue := (s.core.popped p).2
              roomManager := s.roomManager.insertRoom (s.core.popped p).1
              playerStateRepository := saveRoomId s.playerStateRepository
                s.roomManager.nextRoomId (s.core.popped p).1 }) := by
  subst hp
  simp only [MatchService.handleMatch] at h
  split_ifs at h with hp hq
  · exact .inl ⟨.inl hp, _, (Except.ok.inj h).symm⟩
  · exact .inl ⟨.inr (by simpa [MatchQueue.contains] using hq), _, (Except.ok.inj h).symm⟩
  · refine .inr ⟨not_le.1 hp, by simpa [MatchQueue.contains] using hq, ?_⟩
    simp only [MatchService.matchPlayers] at h
    split_ifs at h with hpop
    · exact .inl ⟨List.isEmpty_iff.1 hpop, (Except.ok.inj h).symm⟩
    · obtain ⟨hres, hs'⟩ := createRoom_ok h
      exact .inr ⟨fun he => hpop (List.isEmpty_iff.2 he), hres, hs'⟩

/-- The handler returns when the players it pops resolve. -/
theorem handleMatch_of_resolves {s : Server} (sid : SessionId) {req : MatchReq} {p : PlayerId}
    (hp : toInt req.playerId = p) (h : 0 < p → p ∉ s.matchQueue.inQueue →
      ∀ x ∈ (s.core.popped p).1, s.core.Resolves x) :
    ∃ s', MatchService.handleMatch s sid req = .ok s' := by
  subst hp
  simp only [MatchService.handleMatch]
  split_ifs with hle hmem
  · exact ⟨_, rfl⟩
  · exact ⟨_, rfl⟩
  · have hnew : toInt req.playerId ∉ s.matchQueue.inQueue := by
      simpa [MatchQueue.contains] using hmem
    simp only [MatchService.matchPlayers]
    split_ifs
    · exact ⟨_, rfl⟩
    · exact createRoom_of_resolves (h (not_le.1 hle) hnew)

/-- The act of a MatchReq that is refused. -/
theorem act_match_idle {s : Server} {req : MatchReq} (sid : SessionId) (now : Instant)
    (h : toInt req.playerId ≤ 0 ∨ toInt req.playerId ∈ s.matchQueue.inQueue) :
    s.act (.request sid (.match req) now) = .idle := by
  simp only [act, MatchQueue.contains, decide_eq_true_eq]
  rcases h with hp | hq
  · rw [if_pos hp]
  · rw [if_pos hq, ite_self]

/-- The act of a MatchReq that has to wait. -/
theorem act_match_wait {s : Server} {req : MatchReq} (sid : SessionId) (now : Instant)
    (hp : 0 < toInt req.playerId) (hq : toInt req.playerId ∉ s.matchQueue.inQueue)
    (he : (s.core.popped (toInt req.playerId)).1 = []) :
    s.act (.request sid (.match req) now) = .wait (toInt req.playerId) := by
  simp only [act, MatchQueue.contains, decide_eq_true_eq]
  rw [if_neg (not_le.2 hp), if_neg hq, if_pos (List.isEmpty_iff.2 he)]

/-- The act of a MatchReq that makes a room. -/
theorem act_match_room {s : Server} {req : MatchReq} (sid : SessionId) (now : Instant)
    (hp : 0 < toInt req.playerId) (hq : toInt req.playerId ∉ s.matchQueue.inQueue)
    (hne : (s.core.popped (toInt req.playerId)).1 ≠ []) :
    s.act (.request sid (.match req) now) =
      .room (toInt req.playerId) (s.core.popped (toInt req.playerId)).1 := by
  simp only [act, MatchQueue.contains, decide_eq_true_eq]
  rw [if_neg (not_le.2 hp), if_neg hq, if_neg (fun h => hne (List.isEmpty_iff.1 h))]

/-- **A ReconnectReq** is refused, or resumes the player. -/
theorem handleReconnect_ok {s s' : Server} {sid : SessionId} {req : ReconnectReq} {p : PlayerId}
    (hp : toInt req.playerId = p) (h : ReconnectService.handleReconnect s sid req = .ok s') :
    ((∀ st, ¬ s.core.Resumable p req.token st) ∧ ∃ reason,
        s' = ReconnectService.sendReconnectFailed
          { s with metrics := s.metrics.incrReconnectReq } sid reason) ∨
      ∃ st rm, s.core.Resumable p req.token st ∧ s.roomManager.mark p .online = .ok rm ∧
        s' = ReconnectService.sendReconnectSuccess { s with
          metrics := s.metrics.incrReconnectReq
          sessions := s.sessions.modify sid fun session =>
            { session with playerId := p, token := req.token }
          playerManager := s.playerManager.addPlayer p sid
          connectionManager := s.connectionManager.addSession sid
          roomManager := rm
          playerStateManager := s.playerStateManager.markOnline p } sid p st.roomId := by
  subst hp
  simp only [ReconnectService.handleReconnect] at h
  cases hst : s.playerStateManager.getState (toInt req.playerId) with
  | none =>
    simp only [hst] at h
    refine .inl ⟨fun st hst' => ?_, _, (Except.ok.inj h).symm⟩
    cases hst.symm.trans hst'.1
  | some st =>
    simp only [hst] at h
    have hof : ∀ st', s.core.Resumable (toInt req.playerId) req.token st' → st = st' :=
      fun st' h' => Option.some.inj (hst.symm.trans h'.1)
    split_ifs at h with htok hoff
    · refine .inl ⟨fun st' h' => htok ?_, _, (Except.ok.inj h).symm⟩
      rw [hof st' h', h'.2.1]
    · refine .inl ⟨fun st' h' => hoff ?_, _, (Except.ok.inj h).symm⟩
      rw [hof st' h', h'.2.2]
    · rw [ReconnectService.resume] at h
      simp only [RoomManager.markPlayerReconnected_eq] at h
      cases hrm : s.roomManager.mark (toInt req.playerId) .online with
      | error f => simp [hrm, crash] at h
      | ok rm =>
        simp only [hrm] at h
        exact .inr ⟨st, rm, ⟨hst, not_not.1 htok, not_not.1 hoff⟩, rfl, (Except.ok.inj h).symm⟩

/-- The act of a ReconnectReq resumes the player exactly when a state allows it. -/
theorem act_reconnect (s : Server) (sid : SessionId) (req : ReconnectReq) (now : Instant) :
    ((∀ st, ¬ s.core.Resumable (toInt req.playerId) req.token st) ∧
        s.act (.request sid (.reconnect req) now) = .idle) ∨
      (∃ st, s.core.Resumable (toInt req.playerId) req.token st) ∧
        s.act (.request sid (.reconnect req) now) =
          .resume sid (toInt req.playerId) req.token := by
  simp only [act]
  cases hst : s.playerStateManager.getState (toInt req.playerId) with
  | none => exact .inl ⟨fun st h => (by cases hst.symm.trans h.1), rfl⟩
  | some st =>
    have hof : ∀ st', s.core.Resumable (toInt req.playerId) req.token st' → st = st' :=
      fun st' h' => Option.some.inj (hst.symm.trans h'.1)
    dsimp only
    split_ifs with htok hoff
    · exact .inl ⟨fun st' h' => htok (by rw [hof st' h', h'.2.1]), rfl⟩
    · exact .inl ⟨fun st' h' => hoff (by rw [hof st' h', h'.2.2]), rfl⟩
    · exact .inr ⟨⟨st, hst, not_not.1 htok, not_not.1 hoff⟩, rfl⟩

/-- The close callback, for the session it is called with. -/
theorem closeCallback_ok {s s' : Server} {sid : SessionId} {ses : Session} {now : Instant}
    (hses : s.session sid = ses) (h : s.closeCallback sid now = .ok s') :
    ∃ rm, s.roomManager.mark ses.playerId .offline = .ok rm ∧ s' = { s with
      matchQueue := s.matchQueue.leave ses.playerId
      playerManager := s.playerManager.removePlayer ses.playerId
      connectionManager := s.connectionManager.removeSession sid
      playerStateManager := (s.playerStateManager.saveOnline ses.playerId
        (s.roomManager.getRoomIdByPlayer ses.playerId)
          ses.token).markDisconnected ses.playerId now.steady
      roomManager := rm } := by
  subst hses
  simp only [closeCallback, RoomManager.markPlayerDisconnected_eq] at h
  split at h
  · exact absurd h (by simp [crash])
  · rename_i rm hrm
    exact ⟨rm, hrm, (Except.ok.inj h).symm⟩

/-- The loop of the sweep, as one update of the server. -/
theorem removePlayers_ok {s s' : Server} {ps : List PlayerId} (h : s.removePlayers ps = .ok s') :
    ∃ rm, ps.foldlM RoomManager.removePlayer s.roomManager = .ok rm ∧ s' = { s with
      roomManager := rm
      playerStateManager := ps.foldl PlayerStateManager.removePlayer s.playerStateManager } := by
  induction ps generalizing s with
  | nil => exact ⟨s.roomManager, rfl, (Except.ok.inj h).symm⟩
  | cons p ps ih =>
    unfold removePlayers at h
    cases hrm : s.roomManager.removePlayer p with
    | error f => simp [hrm, crash] at h
    | ok rm =>
      simp only [hrm] at h
      obtain ⟨rm', hrm', hs'⟩ := ih h
      rw [List.foldlM_cons, hrm]
      exact ⟨rm', hrm', hs'⟩

/-- The loop of a sweep removes one player of the core after the other. -/
theorem foldlM_expire {c : Core} {ps : List PlayerId} {rm : RoomManager}
    (h : ps.foldlM RoomManager.removePlayer c.roomManager = .ok rm) :
    ps.foldlM Core.expire c = .ok { c with
      roomManager := rm
      playerStateManager := ps.foldl PlayerStateManager.removePlayer c.playerStateManager } := by
  induction ps generalizing c with
  | nil =>
    obtain rfl := Except.ok.inj h
    rfl
  | cons p ps ih =>
    rw [List.foldlM_cons] at h ⊢
    cases hrm : c.roomManager.removePlayer p with
    | error f => rw [hrm] at h; cases h
    | ok rm₁ =>
      rw [hrm] at h
      rw [Core.expire, hrm]
      exact ih (c := { c with
        roomManager := rm₁
        playerStateManager := c.playerStateManager.removePlayer p }) h

theorem timedOut_iff (s : Server) (now : Time) (p : PlayerId) :
    s.playerStateManager.timedOut now 30 p = true ↔
      ∃ t, s.core.OfflineSince p t ∧ 30 < elapsedSeconds now t := by
  simp only [PlayerStateManager.timedOut, Core.OfflineSince, core]
  cases s.playerStateManager.states.lookup p with
  | none => simp
  | some st => simp

/-- The session that is closed keeps its id and its token. -/
theorem session_setClosed (s : Server) (sid : SessionId) :
    ((s.setSession sid fun session => { session with closed := true }).session sid).playerId =
        (s.session sid).playerId ∧
      ((s.setSession sid fun session => { session with closed := true }).session sid).token =
        (s.session sid).token := by
  rw [session, setSession, Table.lookup_modify, if_pos rfl, session]
  cases s.sessions.lookup sid <;> exact ⟨rfl, rfl⟩

/-! ### What an event leaves -/

/-- The state a handler goes on from, once it has counted its request. -/
def counted (s : Server) (sid : SessionId) (now : Instant)
    (count : ServerMetrics → ServerMetrics) : Server :=
  { s.received sid now with metrics := count s.metrics.incrRecvPacket }

/-- What an event does: the act it is on the core and the state it leaves, for each way in which
it can be handled. -/
inductive Handled (s : Server) : Event → Act → Server → Prop
  | accept (sid : SessionId) (now : Instant) :
      Handled s (.accept sid now) (.accept sid) (s.accept sid now)
  | loginRefused {sid : SessionId} {req : LoginReq} {now : Instant}
      (hu : req.username.isEmpty = true) :
      Handled s (.request sid (.login req) now) .idle
        (LoginService.sendLoginFailed (s.counted sid now .incrLoginReq) sid
          (ascii "username is empty"))
  | login {sid : SessionId} {req : LoginReq} {now : Instant} (hu : req.username.isEmpty = false) :
      Handled s (.request sid (.login req) now) (.login sid)
        (LoginService.sendLoginSuccess
          (LoginService.bind (s.counted sid now .incrLoginReq) sid req.username now) sid
          s.nextPlayerId (LoginService.generateToken s.nextPlayerId))
  | matchRefused {sid : SessionId} {req : MatchReq} {now : Instant}
      (href : toInt req.playerId ≤ 0 ∨ toInt req.playerId ∈ s.matchQueue.inQueue)
      (reason : Bytes) :
      Handled s (.request sid (.match req) now) .idle
        (MatchService.sendMatchFailure (s.counted sid now .incrMatchReq) sid reason)
  | wait {sid : SessionId} {req : MatchReq} {now : Instant} (hp : 0 < toInt req.playerId)
      (hq : toInt req.playerId ∉ s.matchQueue.inQueue)
      (he : (s.core.popped (toInt req.playerId)).1 = []) :
      Handled s (.request sid (.match req) now) (.wait (toInt req.playerId))
        { MatchService.sendMatchSuccess (s.counted sid now .incrMatchReq) sid with
          matchQueue := (s.core.popped (toInt req.playerId)).2 }
  | room {sid : SessionId} {req : MatchReq} {now : Instant} {ps : List PlayerId}
      (hp : 0 < toInt req.playerId) (hq : toInt req.playerId ∉ s.matchQueue.inQueue)
      (hps : (s.core.popped (toInt req.playerId)).1 = ps) (hne : ps ≠ [])
      (hres : ∀ p ∈ ps, s.core.Resolves p) :
      Handled s (.request sid (.match req) now) (.room (toInt req.playerId) ps)
        { (MatchService.sendMatchSuccess (s.counted sid now .incrMatchReq) sid).sendEach
            (ps.map fun p => (s.sessionOf p, .roomCreatedNotify
              { roomId := s.roomManager.nextRoomId, players := ps })) with
          matchQueue := (s.core.popped (toInt req.playerId)).2
          roomManager := s.roomManager.insertRoom ps
          playerStateRepository :=
            saveRoomId s.playerStateRepository s.roomManager.nextRoomId ps }
  | chat {sid : SessionId} {req : ChatReq} {now : Instant} {room : Room}
      (hroom : s.roomManager.getRoom (toInt req.roomId) = some room)
      (hres : ∀ p ∈ room.playerIds, s.core.Resolves p) :
      Handled s (.request sid (.chat req) now) .idle
        (({ s.counted sid now .incrChatReq with
          playerStateRepository := s.scored (s.session sid).playerId } : Server).sendEach
            (room.playerIds.map fun p => (s.sessionOf p, .chatNotify
              { roomId := room.roomId, playerId := (s.session sid).playerId, text := req.text })))
  | heartbeat (sid : SessionId) (req : HeartbeatReq) (now : Instant) :
      Handled s (.request sid (.heartbeat req) now) .idle
        (((s.counted sid now fun m =>
            if req.lastRttMs > 0 then m.incrHeartbeatReq.recordHeartbeat req.lastRttMs
            else m.incrHeartbeatReq).updateLastActiveTime sid now.steady).send sid
          (.heartbeatResp
            { clientTimeMs := req.clientTimeMs, serverTimeMs := now.steady.tdiv (10 ^ 6) }))
  | reconnectRefused {sid : SessionId} {req : ReconnectReq} {now : Instant}
      (hno : ∀ st, ¬ s.core.Resumable (toInt req.playerId) req.token st) (reason : Bytes) :
      Handled s (.request sid (.reconnect req) now) .idle
        (ReconnectService.sendReconnectFailed (s.counted sid now .incrReconnectReq) sid reason)
  | resume {sid : SessionId} {req : ReconnectReq} {now : Instant} {st : PlayerRuntimeState}
      {rm : RoomManager} (hst : s.core.Resumable (toInt req.playerId) req.token st)
      (hrm : s.roomManager.mark (toInt req.playerId) .online = .ok rm) :
      Handled s (.request sid (.reconnect req) now) (.resume sid (toInt req.playerId) req.token)
        (ReconnectService.sendReconnectSuccess { s.counted sid now .incrReconnectReq with
          sessions := s.sessions.modify sid fun session =>
            { session with playerId := toInt req.playerId, token := req.token }
          playerManager := s.playerManager.addPlayer (toInt req.playerId) sid
          connectionManager := s.connectionManager.addSession sid
          roomManager := rm
          playerStateManager := s.playerStateManager.markOnline (toInt req.playerId) }
            sid (toInt req.playerId) st.roomId)
  | ranking (sid : SessionId) (req : RankingReq) (players : List PlayerState) (now : Instant) :
      Handled s (.request sid (.ranking req players) now) .idle
        (RankingService.handleRankingReq (s.received sid now) sid req players)
  | unregistered (sid : SessionId) (msgId : UInt16) (now : Instant) :
      Handled s (.request sid (.unregistered msgId) now) .idle (s.received sid now)
  | closed {sid : SessionId} {now : Instant} (hc : (s.session sid).closed = true) :
      Handled s (.close sid now) .idle s
  | close {sid : SessionId} {now : Instant} {rm : RoomManager}
      (hc : (s.session sid).closed = false)
      (hrm : s.roomManager.mark (s.session sid).playerId .offline = .ok rm) :
      Handled s (.close sid now) (.close sid now.steady)
        { s.setSession sid fun session => { session with closed := true } with
          matchQueue := s.matchQueue.leave (s.session sid).playerId
          playerManager := s.playerManager.removePlayer (s.session sid).playerId
          connectionManager := s.connectionManager.removeSession sid
          playerStateManager := (s.playerStateManager.saveOnline (s.session sid).playerId
            (s.roomManager.getRoomIdByPlayer (s.session sid).playerId)
              (s.session sid).token).markDisconnected (s.session sid).playerId now.steady
          roomManager := rm }
  | release (sid : SessionId) :
      Handled s (.release sid) (.release sid)
        (s.setSession sid fun session => { session with alive := false })
  | sweep {order ps : List PlayerId} {now : Instant} {rm : RoomManager}
      (hps : s.playerStateManager.getReconnectTimeoutPlayers order now.steady 30 = ps)
      (hrm : ps.foldlM RoomManager.removePlayer s.roomManager = .ok rm) :
      Handled s (.sweep order now) (.sweep ps now.steady) { s with
        roomManager := rm
        playerStateManager := ps.foldl PlayerStateManager.removePlayer s.playerStateManager }

theorem handled_match {s s' : Server} {sid : SessionId} {req : MatchReq} {now : Instant}
    (h : MatchService.handleMatch (s.received sid now) sid req = .ok s') :
    Handled s (.request sid (.match req) now) (s.act (.request sid (.match req) now)) s' := by
  rcases handleMatch_ok (s := s.received sid now) rfl h with
    ⟨href, reason, rfl⟩ | ⟨hp, hq, ⟨he, rfl⟩ | ⟨hne, hres, rfl⟩⟩
  · rw [act_match_idle (s := s) sid now href]
    exact .matchRefused (s := s) href reason
  · rw [act_match_wait (s := s) sid now hp hq he]
    exact .wait hp hq he
  · rw [act_match_room (s := s) sid now hp hq hne]
    exact .room hp hq rfl hne hres

theorem handled_chat {s s' : Server} {sid : SessionId} {req : ChatReq} {now : Instant}
    (h : ChatService.handleChat (s.received sid now) sid req = .ok s') :
    Handled s (.request sid (.chat req) now) .idle s' := by
  obtain ⟨room, hroom, hres, rfl⟩ := handleChat_ok h
  have hscored : (s.received sid now).scored (s.session sid).playerId =
      s.scored (s.session sid).playerId := scored_congr (by rfl) _
  have hchat := @Handled.chat s sid req now room hroom hres
  rwa [← hscored] at hchat

theorem handled_reconnect {s s' : Server} {sid : SessionId} {req : ReconnectReq} {now : Instant}
    (h : ReconnectService.handleReconnect (s.received sid now) sid req = .ok s') :
    Handled s (.request sid (.reconnect req) now) (s.act (.request sid (.reconnect req) now)) s' := by
  rcases handleReconnect_ok (s := s.received sid now) rfl h with
    ⟨hno, reason, rfl⟩ | ⟨st, rm, hst, hrm, rfl⟩
  · rcases act_reconnect s sid req now with ⟨-, hact⟩ | ⟨⟨st, hst⟩, -⟩
    · rw [hact]
      exact .reconnectRefused (s := s) hno reason
    · exact absurd hst (hno st)
  · rcases act_reconnect s sid req now with ⟨hno, -⟩ | ⟨-, hact⟩
    · exact absurd hst (hno st)
    · rw [hact]
      exact .resume hst hrm

theorem handled_close {s s' : Server} {sid : SessionId} {now : Instant}
    (h : s.close sid now = .ok s') :
    Handled s (.close sid now) (s.act (.close sid now)) s' := by
  rw [close] at h
  simp only [act]
  split_ifs at h ⊢ with hc
  · obtain rfl := Except.ok.inj h
    exact .closed hc
  · obtain ⟨rm, hrm, rfl⟩ := closeCallback_ok rfl h
    obtain ⟨hid, htoken⟩ := s.session_setClosed sid
    rw [hid] at hrm ⊢
    rw [htoken]
    exact .close (Bool.eq_false_iff.2 hc) hrm

/-- **An event is handled in one of these ways.** -/
theorem handled_of_step {s s' : Server} {e : Event} (h : s.step e = .ok s') :
    Handled s e (s.act e) s' := by
  cases e with
  | accept sid now =>
    obtain rfl := Except.ok.inj h
    exact .accept sid now
  | request sid req now =>
    have h : (s.received sid now).dispatch sid now req = .ok s' := h
    cases req with
    | login req =>
      obtain rfl := Except.ok.inj h
      simp only [act, LoginService.handleLogin]
      split_ifs with hu
      · exact .loginRefused hu
      · exact .login (Bool.eq_false_iff.2 hu)
    | «match» req => exact handled_match h
    | chat req => exact handled_chat h
    | heartbeat req =>
      obtain rfl := Except.ok.inj h
      have hbeat := Handled.heartbeat (s := s) sid req now
      rw [HeartbeatService.handleHeartbeat]
      split_ifs at hbeat ⊢ <;> exact hbeat
    | reconnect req => exact handled_reconnect h
    | ranking req players =>
      obtain rfl := Except.ok.inj h
      exact .ranking sid req players now
    | unregistered msgId =>
      obtain rfl := Except.ok.inj h
      exact .unregistered sid msgId now
  | close sid now => exact handled_close h
  | release sid =>
    obtain rfl := Except.ok.inj h
    exact .release sid
  | sweep order now =>
    obtain ⟨rm, hrm, rfl⟩ := removePlayers_ok h
    exact .sweep rfl hrm

/-- **Every step of the server is a step of its core.** -/
theorem step_core {s s' : Server} {e : Event} (h : server.step s e s') :
    CoreStep s.core (s.act e) s'.core := by
  obtain ⟨hen, h⟩ := h
  have hcase := handled_of_step h
  generalize s.act e = a at hcase ⊢
  clear h
  cases hcase with
  | accept sid now => exact .accept hen
  | login => exact .login ((s.alive_iff _).1 hen.1)
  | wait hp hq he => exact .wait hp hq he
  | room hp hq hps hne hres =>
    subst hps
    exact .room hp hq hne hres
  | resume hst hrm => exact .resume ((s.alive_iff _).1 hen.1) hst hrm
  | @close sid now rm hc hrm =>
    obtain ⟨ses, hses, hlive⟩ := (s.alive_iff sid).1 hen
    have hof : s.session sid = ses := by
      rw [session, show s.sessions.lookup sid = some ses from hses, Option.getD_some]
    rw [hof] at hc hrm ⊢
    exact .close hses hc hlive hrm
  | release sid =>
    obtain ⟨halive, hclosed, hconn⟩ := hen
    obtain ⟨ses, hses, -⟩ := (s.alive_iff sid).1 halive
    refine .release hses ?_ hconn
    rw [session, show s.sessions.lookup sid = some ses from hses, Option.getD_some] at hclosed
    exact hclosed
  | @sweep order ps now rm hps hrm =>
    subst hps
    refine .sweep (hen.1.filter _) (fun p => ?_) (foldlM_expire hrm)
    rw [PlayerStateManager.getReconnectTimeoutPlayers, List.mem_filter, timedOut_iff]
    refine ⟨And.right, fun hp => ⟨?_, hp⟩⟩
    obtain ⟨t, ⟨st, hst, -⟩, -⟩ := hp
    exact (hen.mem_iff p).2 (Finmap.mem_of_lookup_eq_some hst)
  | _ => exact .idle _

end Server
end GameServer
