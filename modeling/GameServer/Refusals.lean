/-
# Requests that change nothing

A handler refuses a request by sending a reply with a code other than 0 and returning
(`Server.OnlyFails`).  Three of the six do this, on conditions of their own
(`Server.Declines`): a login without a user name, a match request for an id that is not
positive or waits already, a reconnect request that no runtime state allows.  `keeps_iff`
goes through the handlers and says which requests leave everything but the counters, the
activity time and the messages as it was, and `onlyFails_iff` which of them are refused.
-/

import GameServer.Formation
import GameServer.Records

namespace GameServer

/-- The message says that a request failed. -/
def Response.isFailure : Response → Bool
  | .loginResp r => r.code ≠ 0
  | .matchResp r => r.code ≠ 0
  | .chatResp r => r.code ≠ 0
  | .reconnectResp r => r.code ≠ 0
  | .roomCreatedNotify _ | .chatNotify _ | .heartbeatResp _ | .rankingResp _ => false

theorem toInt_succ_ne (x : ℤ) : toInt (x + 1) ≠ x := fun h => by
  have hmod := toInt_emod (x + 1)
  rw [h] at hmod
  omega

theorem toInt64_succ_ne (x : ℤ) : toInt64 (x + 1) ≠ x := fun h => by
  have hmod : (toInt64 (x + 1)) % 2 ^ 64 = (x + 1) % 2 ^ 64 := Int.bmod_emod ..
  rw [h] at hmod
  omega

/-- Counting packets leaves the heartbeat totals alone. -/
theorem ServerMetrics.rtt_iterate_incrSendPacket (n : ℕ) (m : ServerMetrics) :
    (incrSendPacket^[n] m).totalHeartbeatRttMs = m.totalHeartbeatRttMs ∧
      (incrSendPacket^[n] m).heartbeatRttCount = m.heartbeatRttCount :=
  ⟨iterate_incrSendPacket_frame (f := totalHeartbeatRttMs) (fun _ => rfl) n m,
    iterate_incrSendPacket_frame (f := heartbeatRttCount) (fun _ => rfl) n m⟩

namespace Server

/-- Everything is kept that a handler decides by, and so are the records and the heartbeat
totals. -/
structure Keeps (s s' : Server) : Prop where
  core : s'.core = s.core
  records : s'.playerStateRepository = s.playerStateRepository
  rttTotal : s'.metrics.totalHeartbeatRttMs = s.metrics.totalHeartbeatRttMs
  rttCount : s'.metrics.heartbeatRttCount = s.metrics.heartbeatRttCount

/-- A request on `sid` had no other effect than a reply that it failed, if that, and those on
the counters and on the activity time of the session. -/
structure OnlyFails (s : Server) (sid : SessionId) (s' : Server) : Prop where
  keeps : s.Keeps s'
  active : ∀ sid', sid' ≠ sid → s'.lastActive.lookup sid' = s.lastActive.lookup sid'
  sent : s'.sent = s.sent ∨ ∃ reply : Response, reply.isFailure = true ∧
    s'.sent = s.sent ++ [(sid, reply)]

/-- The checks of the handler turn the request down. -/
def Declines (s : Server) : Request → Prop
  | .login req => req.username = []
  | .match req => toInt req.playerId ≤ 0 ∨ toInt req.playerId ∈ s.matchQueue.inQueue
  | .reconnect req => ∀ st, ¬ s.core.Resumable (toInt req.playerId) req.token st
  | .chat _ | .heartbeat _ | .ranking _ _ => False
  | .unregistered _ => True

/-- The request is declined, or there is nothing that its handler would write. -/
def WritesNothing (s : Server) (sid : SessionId) : Request → Prop
  | .chat _ => s.playerStateRepository.loadPlayerState (s.session sid).playerId = none
  | .heartbeat req => req.lastRttMs ≤ 0
  | .ranking _ _ => True
  | req => s.Declines req

theorem lookup_received (s : Server) (sid : SessionId) (now : Instant) {sid' : SessionId}
    (h : sid' ≠ sid) : (s.received sid now).lastActive.lookup sid' = s.lastActive.lookup sid' :=
  Finmap.lookup_insert_of_ne _ h

/-- **A request that is declined** returns, and only fails. -/
theorem onlyFails_of_declines {s : Server} {req : Request} (h : s.Declines req) (sid : SessionId)
    (now : Instant) : ∃ s', s.handlePacket sid req now = .ok s' ∧ s.OnlyFails sid s' := by
  cases req with
  | login req =>
    have h : req.username.isEmpty = true := List.isEmpty_iff.2 h
    refine ⟨_, rfl, ?_⟩
    rw [LoginService.handleLogin, if_pos h]
    exact ⟨⟨rfl, rfl, rfl, rfl⟩, fun _ => lookup_received s sid now, .inr ⟨_, rfl, rfl⟩⟩
  | «match» req =>
    have hreply : ∃ reason, MatchService.handleMatch (s.received sid now) sid req =
        .ok (MatchService.sendMatchFailure { s.received sid now with
          metrics := (s.received sid now).metrics.incrMatchReq } sid reason) := by
      simp only [MatchService.handleMatch]
      split_ifs with hp hq
      · exact ⟨_, rfl⟩
      · exact ⟨_, rfl⟩
      · have hmem : toInt req.playerId ∈ s.matchQueue.inQueue := h.resolve_left hp
        exact absurd (decide_eq_true hmem) hq
    obtain ⟨reason, hreply⟩ := hreply
    exact ⟨_, hreply, ⟨rfl, rfl, rfl, rfl⟩, fun _ => lookup_received s sid now, .inr ⟨_, rfl, rfl⟩⟩
  | reconnect req =>
    have hreply : ∃ reason, ReconnectService.handleReconnect (s.received sid now) sid req =
        .ok (ReconnectService.sendReconnectFailed { s.received sid now with
          metrics := (s.received sid now).metrics.incrReconnectReq } sid reason) := by
      simp only [ReconnectService.handleReconnect]
      cases hst : (s.received sid now).playerStateManager.getState (toInt req.playerId) with
      | none => exact ⟨_, rfl⟩
      | some st =>
        dsimp only
        split_ifs with htok hoff
        · exact ⟨_, rfl⟩
        · exact ⟨_, rfl⟩
        · exact absurd ⟨hst, not_not.1 htok, not_not.1 hoff⟩ (h st)
    obtain ⟨reason, hreply⟩ := hreply
    exact ⟨_, hreply, ⟨rfl, rfl, rfl, rfl⟩, fun _ => lookup_received s sid now, .inr ⟨_, rfl, rfl⟩⟩
  | unregistered msgId =>
    exact ⟨_, rfl, ⟨rfl, rfl, rfl, rfl⟩, fun _ => lookup_received s sid now, .inl rfl⟩
  | chat req | heartbeat req | ranking req players => exact h.elim

theorem declines_login {s s' : Server} {sid : SessionId} {req : LoginReq} {now : Instant}
    (h : s.handlePacket sid (.login req) now = .ok s') (hcore : s'.core = s.core) :
    req.username = [] := by
  obtain rfl := Except.ok.inj h
  by_contra hu
  have hu : ¬ req.username.isEmpty = true := fun he => hu (List.isEmpty_iff.1 he)
  have hnext := congrArg Core.nextPlayerId hcore
  rw [LoginService.handleLogin, if_neg hu] at hnext
  exact toInt_succ_ne _ hnext

theorem declines_match {s s' : Server} {sid : SessionId} {req : MatchReq} {now : Instant}
    (h : s.handlePacket sid (.match req) now = .ok s') (hcore : s'.core = s.core) :
    toInt req.playerId ≤ 0 ∨ toInt req.playerId ∈ s.matchQueue.inQueue := by
  rcases handleMatch_ok (s := s.received sid now) rfl h with
    ⟨href, -⟩ | ⟨-, hq, ⟨he, rfl⟩ | ⟨-, -, rfl⟩⟩
  · exact href
  · -- The player waits now and did not before.
    have hqueue : (s.core.popped (toInt req.playerId)).2 = s.matchQueue :=
      congrArg Core.matchQueue hcore
    have hq : toInt req.playerId ∉ s.matchQueue.inQueue := hq
    have hjoin : (s.core.popped (toInt req.playerId)).2 = s.matchQueue.join (toInt req.playerId) := by
      rcases (s.matchQueue.join (toInt req.playerId)).tryPop_two with ⟨-, heq⟩ | ⟨x, y, rest, -, heq⟩
      · exact congrArg Prod.snd heq
      · have he : ((s.matchQueue.join (toInt req.playerId)).tryPopMatchedPlayers 2).1 = [] := he
        rw [heq] at he
        cases he
    rw [← hqueue, hjoin] at hq
    exact absurd (Finset.mem_insert_self ..) hq
  · exact absurd (congrArg (fun c => c.roomManager.nextRoomId) hcore) (toInt_succ_ne _)

theorem declines_reconnect {s s' : Server} {sid : SessionId} {req : ReconnectReq} {now : Instant}
    (h : s.handlePacket sid (.reconnect req) now = .ok s') (hcore : s'.core = s.core) :
    ∀ st, ¬ s.core.Resumable (toInt req.playerId) req.token st := by
  rcases handleReconnect_ok (s := s.received sid now) rfl h with ⟨hno, -⟩ | ⟨st, rm, hst, -, rfl⟩
  · exact hno
  · -- The player is `Online` now and was `Offline` before.
    have hstates : s.playerStateManager.markOnline (toInt req.playerId) = s.playerStateManager :=
      congrArg Core.playerStateManager hcore
    obtain ⟨hlk, -, hoff⟩ := hst
    have hlk : s.playerStateManager.states.lookup (toInt req.playerId) = some st := hlk
    have hon := s.playerStateManager.lookup_markOnline (toInt req.playerId) (toInt req.playerId)
    rw [hstates, if_pos rfl, hlk, Option.map_some] at hon
    rw [Option.some.inj hon] at hoff
    cases hoff

/-- A chat writes to the records unless its sender has none. -/
theorem scored_eq_iff (s : Server) (p : PlayerId) :
    s.scored p = s.playerStateRepository ↔ s.playerStateRepository.loadPlayerState p = none := by
  cases hst : s.playerStateRepository.loadPlayerState p with
  | none =>
    refine iff_of_true ?_ rfl
    simp only [scored, RankingService.addScore, hst]
  | some st =>
    refine iff_of_false (fun hsame => ?_) (by simp)
    have hst : s.playerStateRepository.states.lookup p = some st := hst
    have hlk := congrArg (fun r => r.states.lookup p) hsame
    simp only [scored, RankingService.addScore, MemoryPlayerStateRepository.loadPlayerState, hst,
      MemoryPlayerStateRepository.lookup_updateScore, if_true, Option.map_some] at hlk
    exact toInt_succ_ne _ (congrArg PlayerState.score (Option.some.inj hlk))

/-- A chat that is handled keeps the records when its sender has none. -/
theorem keeps_chat_iff {s s' : Server} {sid : SessionId} {req : ChatReq} {now : Instant}
    (h : s.handlePacket sid (.chat req) now = .ok s') : s.Keeps s' ↔
      s.playerStateRepository.loadPlayerState (s.session sid).playerId = none := by
  obtain ⟨room, -, -, rfl⟩ := handleChat_ok (s := s.received sid now) h
  have hscored := (s.received sid now).scored_eq_iff (s.session sid).playerId
  refine ⟨fun hk => hscored.1 hk.records, fun hnone => ⟨rfl, hscored.2 hnone, ?_, ?_⟩⟩
  · exact (ServerMetrics.rtt_iterate_incrSendPacket _ _).1
  · exact (ServerMetrics.rtt_iterate_incrSendPacket _ _).2

theorem keeps_heartbeat_iff {s s' : Server} {sid : SessionId} {req : HeartbeatReq} {now : Instant}
    (h : s.handlePacket sid (.heartbeat req) now = .ok s') : s.Keeps s' ↔ req.lastRttMs ≤ 0 := by
  obtain rfl := Except.ok.inj h
  constructor
  · intro hk
    by_contra hpos
    have hcount := hk.rttCount
    rw [HeartbeatService.handleHeartbeat, if_pos (not_le.1 hpos)] at hcount
    simp only [ServerMetrics.recordHeartbeat, if_neg (not_lt.2 (not_le.1 hpos).le)] at hcount
    exact toInt64_succ_ne _ hcount
  · intro hle
    rw [HeartbeatService.handleHeartbeat, if_neg (not_lt.2 hle)]
    exact ⟨rfl, rfl, rfl, rfl⟩

/-- **What leaves everything but counters, activity times and messages as it was.** -/
theorem keeps_iff {s s' : Server} {sid : SessionId} {req : Request} {now : Instant}
    (h : s.handlePacket sid req now = .ok s') : s.Keeps s' ↔ s.WritesNothing sid req := by
  have hdeclined : s.Declines req → s.Keeps s' := fun hd => by
    obtain ⟨s₁, hs₁, hfails⟩ := onlyFails_of_declines hd sid now
    obtain rfl := Except.ok.inj (hs₁.symm.trans h)
    exact hfails.keeps
  cases req with
  | login req => exact ⟨fun hk => declines_login h hk.core, hdeclined⟩
  | «match» req => exact ⟨fun hk => declines_match h hk.core, hdeclined⟩
  | chat req => exact keeps_chat_iff h
  | heartbeat req => exact keeps_heartbeat_iff h
  | reconnect req => exact ⟨fun hk => declines_reconnect h hk.core, hdeclined⟩
  | ranking req players =>
    obtain rfl := Except.ok.inj h
    exact iff_of_true ⟨rfl, rfl, rfl, rfl⟩ trivial
  | unregistered msgId => exact ⟨fun _ => trivial, hdeclined⟩

/-- **Which requests only fail**: those that are declined.  A chat that is handled is sent to the
members of a room, and a heartbeat and a ranking request are always answered. -/
theorem onlyFails_iff {s : Server} (hf : Formed s.core) {sid : SessionId} {req : Request}
    {now : Instant} : (∃ s', s.handlePacket sid req now = .ok s' ∧ s.OnlyFails sid s') ↔
      s.Declines req := by
  refine ⟨fun ⟨s', h, hfails⟩ => ?_, fun hd => onlyFails_of_declines hd sid now⟩
  have hw := (keeps_iff h).1 hfails.keeps
  have hsent : ∀ msg msgs, s'.sent = s.sent ++ msg :: msgs → msg.2.isFailure = true := by
    intro msg msgs heq
    rcases hfails.sent with hnone | ⟨reply, hreply, hone⟩
    · rw [heq] at hnone
      exact absurd hnone (by simp)
    · obtain rfl := (List.cons.inj (List.append_cancel_left (heq.symm.trans hone))).1
      exact hreply
  cases req with
  | chat req =>
    obtain ⟨room, hroom, -, rfl⟩ := handleChat_ok (s := s.received sid now) h
    obtain ⟨p, ps, hps⟩ := List.exists_cons_of_ne_nil (hf.getRoom hroom).ne_nil
    rw [hps] at hsent
    exact absurd (hsent _ _ rfl) Bool.false_ne_true
  | heartbeat req =>
    obtain rfl := Except.ok.inj h
    have hreply := hsent (sid, .heartbeatResp
      { clientTimeMs := req.clientTimeMs, serverTimeMs := now.steady.tdiv (10 ^ 6) }) [] (by
        rw [HeartbeatService.handleHeartbeat]
        split <;> rfl)
    cases hreply
  | ranking req players =>
    obtain rfl := Except.ok.inj h
    have hreply := hsent (sid, _) [] rfl
    cases hreply
  | login req | «match» req | reconnect req | unregistered msgId => exact hw

end Server
end GameServer
