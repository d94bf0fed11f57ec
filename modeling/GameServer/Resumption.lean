/-
# Which identities can be resumed

`handle_reconnect` compares the token of the request with the one in
`PlayerStateManager::states_`, and that map is filled by the close callback of every
connection, whether or not it logged in.  `Identified` says which ids and tokens can
ever be in the sessions and in the map: those that were issued together in a
`LoginResp`, and the id 0 with the empty token that a session starts with.  The second
kind gets into the map when a connection closes without having logged in, and from
then on an empty ReconnectReq is accepted on any connection.  `resumes_issued_iff` says
that this is the only way to resume an identity that was not issued.
-/

import GameServer.Runs

namespace GameServer

/-- The ids and tokens in the sessions and the runtime states were issued together, or
are those of a session that has not logged in. -/
structure Identified (c : Core) (issued : List (SessionId × PlayerId × Bytes)) : Prop where
  session : ∀ {sid ses}, c.sessions.lookup sid = some ses →
    (ses.playerId = 0 ∧ ses.token = []) ∨ (ses.playerId, ses.token) ∈ issued.map Prod.snd
  state : ∀ {p st}, c.playerStateManager.states.lookup p = some st →
    (p = 0 ∧ st.token = []) ∨ (p, st.token) ∈ issued.map Prod.snd
  token : ∀ {p token}, (p, token) ∈ issued.map Prod.snd → token = LoginService.generateToken p

namespace Identified

variable {c c' : Core} {issued : List (SessionId × PlayerId × Bytes)}

theorem init : Identified {} [] where
  session h := by simp at h
  state h := by simp at h
  token h := by simp at h

theorem login (h : Identified c issued) (sid : SessionId) :
    Identified { c with
      nextPlayerId := toInt (c.nextPlayerId + 1)
      sessions := c.sessions.modify sid fun ses =>
        { ses with
          playerId := c.nextPlayerId
          token := LoginService.generateToken c.nextPlayerId }
      playerManager := c.playerManager.addPlayer c.nextPlayerId sid
      connectionManager := c.connectionManager.addSession sid }
      (issued ++ [(sid, c.nextPlayerId, LoginService.generateToken c.nextPlayerId)]) := by
  have hmem : ∀ x, x ∈ (issued ++
        [(sid, c.nextPlayerId, LoginService.generateToken c.nextPlayerId)]).map Prod.snd ↔
      x ∈ issued.map Prod.snd ∨ x = (c.nextPlayerId, LoginService.generateToken c.nextPlayerId) :=
    fun x => by rw [List.map_append, List.mem_append, List.map_singleton, List.mem_singleton]
  constructor
  case session =>
    intro sid' ses hses
    rcases Core.session_rebind rfl hses with ⟨hp, htoken⟩ | hses
    · rw [hp, htoken]
      exact .inr ((hmem _).2 (.inr rfl))
    · exact (h.session hses).imp_right fun hm => (hmem _).2 (.inl hm)
  case state =>
    intro p st hst
    exact (h.state hst).imp_right fun hm => (hmem _).2 (.inl hm)
  case token =>
    intro p token hm
    rcases (hmem _).1 hm with hm | heq
    · exact h.token hm
    · obtain ⟨rfl, rfl⟩ := Prod.mk.inj heq
      rfl

theorem resume (h : Identified c issued) {sid : SessionId} {p : PlayerId} {token : Bytes}
    {st : PlayerRuntimeState} (hst : c.Resumable p token st) (rm : RoomManager) :
    Identified { c with
      sessions := c.sessions.modify sid fun ses => { ses with playerId := p, token := token }
      playerManager := c.playerManager.addPlayer p sid
      connectionManager := c.connectionManager.addSession sid
      roomManager := rm
      playerStateManager := c.playerStateManager.markOnline p } issued := by
  constructor
  case session =>
    intro sid' ses hses
    rcases Core.session_rebind rfl hses with ⟨hp, htoken⟩ | hses
    · obtain ⟨hlk, hst, -⟩ := hst
      rw [hp, htoken, ← hst]
      exact h.state hlk
    · exact h.session hses
  case token => exact h.token
  case state =>
    intro q st' hst'
    rw [PlayerStateManager.lookup_markOnline] at hst'
    split_ifs at hst' with hq
    · obtain ⟨st₀, hst₀, rfl⟩ := Option.map_eq_some_iff.1 hst'
      have hstate := hq ▸ h.state hst₀
      exact hstate
    · exact h.state hst'

/-- The callback stores the session's id and token, or keeps what is stored. -/
theorem close (h : Identified c issued) {sid : SessionId} {ses : Session} {now : Time}
    (hses : c.sessions.lookup sid = some ses) (rm : RoomManager) :
    Identified { c with
      sessions := c.sessions.modify sid fun ses => { ses with closed := true }
      matchQueue := c.matchQueue.leave ses.playerId
      playerManager := c.playerManager.removePlayer ses.playerId
      connectionManager := c.connectionManager.removeSession sid
      playerStateManager := (c.playerStateManager.saveOnline ses.playerId
        (c.roomManager.getRoomIdByPlayer ses.playerId) ses.token).markDisconnected ses.playerId now
      roomManager := rm } issued := by
  constructor
  case session =>
    intro sid' ses' hses'
    obtain ⟨ses₀, hses₀, hp, htoken⟩ := Core.session_close rfl hses'
    rw [hp, htoken]
    exact h.session hses₀
  case token => exact h.token
  case state =>
    intro q st' hst'
    rw [PlayerStateManager.lookup_disconnect] at hst'
    split_ifs at hst' with hq
    · obtain rfl := Option.some.inj hst'
      subst hq
      cases hold : c.playerStateManager.states.lookup ses.playerId with
      | none => exact h.session hses
      | some st =>
        have hstate := h.state hold
        exact hstate
    · exact h.state hst'

/-- **The invariant is kept by every step**, the identities growing by those it issues. -/
theorem step {a : Act} (h : Identified c issued) (hs : CoreStep c a c') :
    Identified c' (issued ++ a.issues c) := by
  cases hs with
  | login _ => exact h.login _
  | accept _ =>
    simp only [Act.issues, List.append_nil]
    refine ⟨fun {sid' ses} hses => ?_, h.state, h.token⟩
    rcases Core.session_insert rfl hses with rfl | hses
    · exact .inl ⟨rfl, rfl⟩
    · exact h.session hses
  | resume _ hst _ =>
    simp only [Act.issues, List.append_nil]
    exact h.resume hst _
  | close hses _ _ _ =>
    simp only [Act.issues, List.append_nil]
    exact h.close hses _
  | release _ _ _ =>
    simp only [Act.issues, List.append_nil]
    refine ⟨fun {sid' ses} hses => ?_, h.state, h.token⟩
    obtain ⟨ses₀, hses₀, hp, htoken⟩ := Core.session_release rfl hses
    rw [hp, htoken]
    exact h.session hses₀
  | sweep _ _ hfold =>
    simp only [Act.issues, List.append_nil]
    have hstate : ∀ {p st}, c'.playerStateManager.states.lookup p = some st →
        (p = 0 ∧ st.token = []) ∨ (p, st.token) ∈ issued.map Prod.snd := fun {p st} hst => by
      rw [(Core.sweep_lookup hfold p).1] at hst
      split_ifs at hst
      exact h.state hst
    have hses : c'.sessions = c.sessions := by rw [Core.sweep_frame hfold]
    exact ⟨fun hlk => h.session (hses ▸ hlk), hstate, h.token⟩
  | idle | wait _ _ _ | room _ _ _ _ =>
    simp only [Act.issues, List.append_nil]
    exact ⟨h.session, h.state, h.token⟩

theorem of_run {tr : History} {s : Server} (h : server.Run tr s) : Identified s.core s.issued :=
  h.invariant (P := fun _ s => Identified s.core s.issued) init
    fun _ hP hs => Server.step_issued hs ▸ hP.step (Server.step_core hs)

end Identified

/-- **Which identities can be resumed.**  A ReconnectReq that is accepted carries an id
and a token that were issued together, unless its id converts to 0, its token is empty,
and the runtime states hold 0 as `Offline` with the empty token; and then it is accepted
although the pair was never issued. -/
theorem resumes_issued_iff {tr : History} {s s' : Server} (h : server.Run tr s)
    {sid : SessionId} {req : ReconnectReq} {now : Instant}
    (hs : server.step s (.request sid (.reconnect req) now) s') :
    ((∃ roomId, s.Accepts s' sid (toInt req.playerId) roomId) →
        (toInt req.playerId, req.token) ∈ s.issued.map Prod.snd) ↔
      ¬ (toInt req.playerId = 0 ∧ req.token = [] ∧ ∃ st, s.core.Resumable 0 [] st) := by
  have hinv := Identified.of_run h
  simp only [Server.accepts_iff hs]
  constructor
  · rintro hissued ⟨hp, htoken, st, hst⟩
    rw [hp, htoken] at hissued
    have hnil := hinv.token (hissued ⟨st.roomId, st, hst, rfl⟩)
    unfold LoginService.generateToken at hnil
    exact absurd hnil.symm (List.append_ne_nil_of_left_ne_nil (by decide) _)
  · rintro hcond ⟨roomId, st, hst, -⟩
    obtain ⟨hlk, htoken, hoff⟩ := hst
    rcases hinv.state hlk with ⟨hp, hnil⟩ | hissued
    · refine absurd ⟨hp, htoken.symm.trans hnil, st, ?_, hnil, hoff⟩ hcond
      rw [← hp]
      exact hlk
    · rw [← htoken]
      exact hissued

/-- A player who closes and reconnects with the token issued. -/
theorem resumes_issued_iff_player : ∃ tr s s', server.Run tr s ∧
    s.Accepts s' 1 (toInt 10000) (-1) ∧
    (toInt 10000, ascii "token_10000") ∈ s.issued.map Prod.snd := by
  obtain ⟨tr, s, s', h, hs, hacc, hno⟩ := Server.exists_step
    (Q := fun _ s s' => s.Accepts s' 1 (toInt 10000) (-1) ∧ toInt 10000 ≠ 0)
    [.accept 0 {}, .request 0 (.login { username := [0x61] }) {}, .close 0 {}, .accept 1 {}]
    (.request 1 (.reconnect { playerId := 10000, token := ascii "token_10000" }) {})
    (by decide +kernel)
  exact ⟨tr, s, s', h, hacc,
    (resumes_issued_iff h hs).2 (fun hcond => hno hcond.1) ⟨-1, hacc⟩⟩

/-- **An identity that nobody was given is resumed.**  A connection closes without
logging in, and an empty ReconnectReq on another is accepted, though no identity has been
issued at all. -/
theorem resumes_nobody : ∃ tr s s', server.Run tr s ∧ (∀ x ∈ tr, x.2.onOpen x.1) ∧
    server.step s (.request 1 (.reconnect {}) {}) s' ∧ s.Accepts s' 1 (toInt 0) (-1) ∧
    s.issued = [] := by
  obtain ⟨tr, s, s', h, hs, hopen, hacc, hissued⟩ := Server.exists_step
    (Q := fun tr s s' => (∀ x ∈ tr, x.2.onOpen x.1) ∧ s.Accepts s' 1 (toInt 0) (-1) ∧
      s.issued = [])
    [.accept 0 {}, .close 0 {}, .accept 1 {}] (.request 1 (.reconnect {}) {}) (by decide +kernel)
  exact ⟨tr, s, s', h, hopen, hs, hacc, hissued⟩

end GameServer
