/-
# One live session per player

A session is bound to a player by its `player_id_`, and three containers have to
agree with it: the other sessions, `PlayerManager::players_` and
`PlayerStateManager::states_`.  A login and a reconnect may both rebind a session
that is already bound, and the close callback erases by id, so none of the
containers determines the others.  `WellBound` is the invariant that holds them
together.  Its two facts about connectivity are that an open session bound to `p`
is the one `players_` has for `p` (`bound`) and that nobody in `players_` is held
`Offline` (`online`); the three before them say that no id can be met before it is
issued, which is what makes the id of a login new everywhere.

A player id of 0 is the one a session has before it logs in, and several sessions
have it.
-/

import GameServer.Runs

namespace GameServer

/-- An id the server can have met: 0, or one that a login has drawn. -/
def Core.Known (c : Core) (p : PlayerId) : Prop := p = 0 ∨ 10000 ≤ p ∧ p < c.nextPlayerId

/-- An id that was met stays known. -/
theorem Core.Known.step {c c' : Core} {a : Act} {p : PlayerId} (h : c.Known p)
    (hr : LoginInRange c a) (hs : CoreStep c a c') : c'.Known p := by
  refine h.imp_right fun ⟨hle, hlt⟩ => ⟨hle, ?_⟩
  rw [hs.nextPlayerId_eq]
  split_ifs with hlogin
  · rw [hr hlogin]
    exact hlt.trans (lt_add_one _)
  · exact hlt

/-- The binding of sessions to players, and what the managers know of it. -/
structure WellBound (c : Core) : Prop where
  next : 10000 ≤ c.nextPlayerId
  session_known : ∀ {sid ses}, c.sessions.lookup sid = some ses → c.Known ses.playerId
  player_known : ∀ {p}, p ∈ c.playerManager.players → c.Known p
  state_known : ∀ {p}, p ∈ c.playerStateManager.states → c.Known p
  bound : ∀ {sid p}, c.Bound sid p → p ≠ 0 → c.playerManager.players.lookup p = some sid
  online : ∀ {p}, p ∈ c.playerManager.players → ¬ c.Offline p

namespace WellBound

variable {c c' : Core}

theorem init : WellBound {} where
  next := le_rfl
  session_known h := by simp at h
  player_known h := absurd h Finmap.notMem_empty
  state_known h := absurd h Finmap.notMem_empty
  bound := fun ⟨_, h, _⟩ => by simp at h
  online h := absurd h Finmap.notMem_empty

theorem bound_known (h : WellBound c) {sid : SessionId} {p : PlayerId} (hb : c.Bound sid p) :
    c.Known p :=
  let ⟨_, hses, _, hp⟩ := hb
  hp ▸ h.session_known hses

/-- The next id is nobody's yet. -/
theorem next_not_known (h : WellBound c) : ¬ c.Known c.nextPlayerId := by
  have := h.next
  rintro (h0 | ⟨-, hlt⟩)
  · rw [h0] at this
    exact absurd this (by decide)
  · exact lt_irrefl _ hlt

/-- **Two open sessions are never bound to one player.** -/
theorem bound_unique (h : WellBound c) {sid sid' : SessionId} {p : PlayerId} (hp : p ≠ 0)
    (hb : c.Bound sid p) (hb' : c.Bound sid' p) : sid = sid' :=
  Option.some.inj ((h.bound hb hp).symm.trans (h.bound hb' hp))

/-- A player held `Offline` has no open session. -/
theorem not_bound_of_offline (h : WellBound c) {sid : SessionId} {p : PlayerId} (hp : p ≠ 0)
    (hoff : c.Offline p) : ¬ c.Bound sid p := fun hb =>
  h.online (Finmap.mem_of_lookup_eq_some (h.bound hb hp)) hoff

theorem offline_known (h : WellBound c) {p : PlayerId} (hoff : c.Offline p) : c.Known p :=
  let ⟨_, hst, _⟩ := hoff
  h.state_known (Finmap.mem_of_lookup_eq_some hst)

theorem accept (h : WellBound c) {sid : SessionId} :
    WellBound { c with sessions := c.sessions.insert sid {} } where
  next := h.next
  session_known := by
    intro sid' ses hses
    rcases Core.session_insert rfl hses with rfl | hses
    · exact .inl rfl
    · exact h.session_known hses
  player_known := h.player_known
  state_known := h.state_known
  bound := by
    intro sid' p hb hp
    rw [Core.bound_insert rfl] at hb
    split_ifs at hb
    · exact absurd hb hp
    · exact h.bound hb hp
  online := h.online

theorem login (h : WellBound c) {sid : SessionId}
    (hr : toInt (c.nextPlayerId + 1) = c.nextPlayerId + 1) :
    WellBound { c with
      nextPlayerId := toInt (c.nextPlayerId + 1)
      sessions := c.sessions.modify sid fun ses =>
        { ses with
          playerId := c.nextPlayerId
          token := LoginService.generateToken c.nextPlayerId }
      playerManager := c.playerManager.addPlayer c.nextPlayerId sid
      connectionManager := c.connectionManager.addSession sid } := by
  have hnext := h.next
  have hnew := h.next_not_known
  have hmono : ∀ p, p = c.nextPlayerId ∨ c.Known p → p = 0 ∨ 10000 ≤ p ∧ p < c.nextPlayerId + 1 := by
    rintro p (rfl | h0 | ⟨hle, hlt⟩)
    · exact .inr ⟨hnext, lt_add_one _⟩
    · exact .inl h0
    · exact .inr ⟨hle, hlt.trans (lt_add_one _)⟩
  rw [hr]
  constructor
  case next => exact hnext.trans (le_of_lt (lt_add_one _))
  case session_known =>
    intro sid' ses hses
    rcases Core.session_rebind rfl hses with ⟨hp, -⟩ | hses
    · exact hmono _ (.inl hp)
    · exact hmono _ (.inr (h.session_known hses))
  case player_known =>
    intro p hp
    exact hmono _ ((Finmap.mem_insert.1 hp).imp_right h.player_known)
  case state_known =>
    intro p hp
    exact hmono _ (.inr (h.state_known hp))
  case bound =>
    intro sid' p hb hp
    rw [Core.bound_rebind rfl] at hb
    rw [PlayerManager.addPlayer, Table.lookup_insert']
    split_ifs at hb with hs
    · rw [if_pos hb.2, hs]
    · rw [if_neg fun e : p = c.nextPlayerId => hnew (e ▸ h.bound_known hb), h.bound hb hp]
  case online =>
    intro p hp hoff
    rcases Finmap.mem_insert.1 hp with rfl | hp
    · exact hnew (h.offline_known (c := c) hoff)
    · exact h.online hp hoff

/-- A player who resumes is not bound elsewhere, since nobody held `Offline` is. -/
theorem resume (h : WellBound c) {sid : SessionId} {p : PlayerId} {token : Bytes}
    {st : PlayerRuntimeState} (hst : c.Resumable p token st) (rm : RoomManager) :
    WellBound { c with
      sessions := c.sessions.modify sid fun ses => { ses with playerId := p, token := token }
      playerManager := c.playerManager.addPlayer p sid
      connectionManager := c.connectionManager.addSession sid
      roomManager := rm
      playerStateManager := c.playerStateManager.markOnline p } := by
  have hoff : c.Offline p := ⟨st, hst.1, hst.2.2⟩
  have hknown : c.Known p := h.offline_known hoff
  constructor
  case next => exact h.next
  case session_known =>
    intro sid' ses hses
    rcases Core.session_rebind rfl hses with ⟨hp, -⟩ | hses
    · rw [hp]
      exact hknown
    · exact h.session_known hses
  case player_known =>
    intro q hq
    rcases Finmap.mem_insert.1 hq with rfl | hq
    · exact hknown
    · exact h.player_known hq
  case state_known =>
    intro q hq
    exact h.state_known ((Table.mem_modify ..).1 hq)
  case bound =>
    intro sid' q hb hq
    rw [Core.bound_rebind rfl] at hb
    rw [PlayerManager.addPlayer, Table.lookup_insert']
    split_ifs at hb with hs
    · rw [if_pos hb.2, hs]
    · rw [if_neg fun e : q = p => h.not_bound_of_offline hq (e ▸ hoff) hb, h.bound hb hq]
  case online =>
    intro q hq hoff'
    rw [Core.offline_resume rfl] at hoff'
    rcases Finmap.mem_insert.1 hq with rfl | hq
    · exact hoff'.1 rfl
    · exact h.online hq hoff'.2

/-- The callback erases by id, and no other open session has the id. -/
theorem close (h : WellBound c) {sid : SessionId} {ses : Session} {now : Time}
    (hses : c.sessions.lookup sid = some ses) (hopen : ses.closed = false) (rm : RoomManager) :
    WellBound { c with
      sessions := c.sessions.modify sid fun ses => { ses with closed := true }
      matchQueue := c.matchQueue.leave ses.playerId
      playerManager := c.playerManager.removePlayer ses.playerId
      connectionManager := c.connectionManager.removeSession sid
      playerStateManager := (c.playerStateManager.saveOnline ses.playerId
        (c.roomManager.getRoomIdByPlayer ses.playerId) ses.token).markDisconnected ses.playerId now
      roomManager := rm } := by
  constructor
  case next => exact h.next
  case session_known =>
    intro sid' ses' hses'
    obtain ⟨ses₀, hses₀, hp, -⟩ := Core.session_close rfl hses'
    rw [hp]
    exact h.session_known hses₀
  case player_known =>
    intro q hq
    exact h.player_known (Finmap.mem_erase.1 hq).2
  case state_known =>
    intro q hq
    rcases (PlayerStateManager.mem_disconnect ..).1 hq with rfl | hq
    · exact h.session_known hses
    · exact h.state_known hq
  case bound =>
    intro sid' q hb hq
    rw [Core.bound_close rfl] at hb
    rw [PlayerManager.removePlayer, Table.lookup_erase', h.bound hb.2 hq, if_neg]
    rintro rfl
    exact hb.1 (h.bound_unique hq hb.2 ⟨ses, hses, hopen, rfl⟩)
  case online =>
    intro q hq hoff
    rw [Core.offline_close rfl] at hoff
    obtain ⟨hne, hq⟩ := Finmap.mem_erase.1 hq
    exact hoff.elim hne (h.online hq)

theorem release (h : WellBound c) (sid : SessionId) :
    WellBound { c with
      sessions := c.sessions.modify sid fun ses => { ses with alive := false } } where
  next := h.next
  session_known := by
    intro sid' ses hses
    obtain ⟨ses₀, hses₀, hp, -⟩ := Core.session_release rfl hses
    rw [hp]
    exact h.session_known hses₀
  player_known := h.player_known
  state_known := h.state_known
  bound hb hp := h.bound ((Core.bound_release rfl ..).1 hb) hp
  online := h.online

theorem sweep (h : WellBound c) {ps : List PlayerId} (hfold : ps.foldlM Core.expire c = .ok c') :
    WellBound c' := by
  have hstates : ∀ {p}, p ∈ c'.playerStateManager.states → p ∈ c.playerStateManager.states :=
    fun {p} hp => ((Core.mem_states_sweep hfold p).1 hp).2
  have hoff : ∀ p, c'.Offline p → c.Offline p := fun p hp => ((Core.offline_sweep hfold p).1 hp).2
  rw [Core.sweep_frame hfold] at hstates hoff ⊢
  exact ⟨h.next, h.session_known, h.player_known, fun hp => h.state_known (hstates hp), h.bound,
    fun hp hp' => h.online hp (hoff _ hp')⟩

/-- **The invariant is kept by every step.** -/
theorem step {a : Act} (h : WellBound c) (hr : LoginInRange c a) (hs : CoreStep c a c') :
    WellBound c' := by
  cases hs with
  | idle => exact h
  | accept _ => exact h.accept
  | login _ => exact h.login (hr rfl)
  | wait _ _ _ | room _ _ _ _ =>
    exact ⟨h.next, h.session_known, h.player_known, h.state_known, h.bound, h.online⟩
  | resume _ hst _ => exact h.resume hst _
  | close hses hopen _ _ => exact h.close hses hopen _
  | release _ _ _ => exact h.release _
  | sweep _ _ hfold => exact h.sweep hfold

/-- It holds at the end of every run with fewer than `2 ^ 31 - 10000` logins. -/
theorem of_run {tr : History} {s : Server} (h : server.Run tr s)
    (hn : tr.logins < 2 ^ 31 - 10000) : WellBound s.core :=
  core_invariant init step h (loginsInRange h hn)

end WellBound

/-- **One live session per player.**  As long as fewer than `2 ^ 31 - 10000` logins
were accepted, an open session with the player id `p ≠ 0` is the only one with it,
`PlayerManager` maps `p` to it, and `p` is not held `Offline`.  So a ReconnectReq for
`p` is refused on every session, and leaves the binding as it is. -/
theorem one_live_session {tr : History} {s : Server} (h : server.Run tr s)
    (hn : tr.logins < 2 ^ 31 - 10000) {sid : SessionId} {p : PlayerId} (hb : s.core.Bound sid p)
    (hp : p ≠ 0) :
    (∀ sid', s.core.Bound sid' p → sid' = sid) ∧
      s.playerManager.players.lookup p = some sid ∧
      ¬ s.core.Offline p ∧
      ∀ sid' req now, s.alive sid' → toInt req.playerId = p →
        ∃ s', server.step s (.request sid' (.reconnect req) now) s' ∧ s.Refuses s' sid' := by
  have hinv := WellBound.of_run h hn
  have hoff : ¬ s.core.Offline p := fun hoff => hinv.not_bound_of_offline hp hoff hb
  refine ⟨fun sid' hb' => hinv.bound_unique hp hb' hb, hinv.bound hb hp, hoff,
    fun sid' req now halive hreq => Server.step_refused now halive fun st hst => hoff ?_⟩
  rw [hreq] at hst
  exact ⟨st, hst.1, hst.2.2⟩

/-- A player disconnects and comes back on session 1; the other player tries to resume it from
session 2, with its token, and is refused. -/
theorem one_live_session_login : ∃ s s' : Server, s.core.Bound 1 10000 ∧ s.core.Bound 2 10001 ∧
    (∀ sid', s.core.Bound sid' 10000 → sid' = 1) ∧
    s.playerManager.players.lookup 10000 = some 1 ∧ ¬ s.core.Offline 10000 ∧
    server.step s (.request 2 (.reconnect
      { playerId := 10000, token := LoginService.generateToken 10000 }) {}) s' ∧
    s.Refuses s' 2 := by
  obtain ⟨tr, s, h, hn, hb, hb', halive⟩ := Server.exists_run
    (Q := fun tr s => tr.logins < 2 ^ 31 - 10000 ∧ s.core.Bound 1 10000 ∧ s.core.Bound 2 10001 ∧
      s.alive 2 = true)
    [.accept 0 {}, .request 0 (.login { username := [0x61] }) {}, .close 0 {}, .accept 1 {},
      .request 1 (.reconnect
        { playerId := 10000, token := LoginService.generateToken 10000 }) {},
      .accept 2 {}, .request 2 (.login { username := [0x62] }) {}] (by decide +kernel)
  obtain ⟨huniq, hlookup, hoff, hrefused⟩ := one_live_session h hn hb (by decide)
  obtain ⟨s', hs, hno⟩ := hrefused 2
    { playerId := 10000, token := LoginService.generateToken 10000 } {} halive (by decide)
  exact ⟨s, s', hb, hb', huniq, hlookup, hoff, hs, hno⟩

end GameServer
