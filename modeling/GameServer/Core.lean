/-
# What an event does to the shared state

The invariants of the server are about seven things: the sessions, the player
manager, the rooms, the match queue, the connections, the runtime states and the id
counter.  `Core` is the state cut down to these.  What an event does to the core
does not depend on how the messages it sends are worded or on the records and the
metrics, and is one of nine acts: `Server.act` says which one, `CoreStep` what each
changes and under which conditions it happens.  That every step of the server is such
a step of its core is proved in `Refinement.lean`; every invariant is then proved by
cases on `CoreStep`, without unfolding a handler.  What an act does to each of the
predicates the invariants speak of (`Core.Bound`, `Core.OfflineSince`, ...) is stated
once, here.
-/

import GameServer.EventLoop

namespace GameServer

/-- The part of the state that the handlers decide by. -/
structure Core where
  sessions : Table SessionId Session := ∅
  playerManager : PlayerManager := {}
  roomManager : RoomManager := {}
  matchQueue : MatchQueue := {}
  connectionManager : ConnectionManager := {}
  playerStateManager : PlayerStateManager := {}
  nextPlayerId : ℤ := 10000

/-- The core of a server state. -/
def Server.core (s : Server) : Core where
  sessions := s.sessions
  playerManager := s.playerManager
  roomManager := s.roomManager
  matchQueue := s.matchQueue
  connectionManager := s.connectionManager
  playerStateManager := s.playerStateManager
  nextPlayerId := s.nextPlayerId

namespace Core

def Alive (c : Core) (sid : SessionId) : Prop := ∃ ses, c.sessions.lookup sid = some ses ∧ ses.alive

/-- The session is open. -/
def Open (c : Core) (sid : SessionId) : Prop :=
  ∃ ses, c.sessions.lookup sid = some ses ∧ ses.closed = false

/-- The session is open and its `player_id_` is `p`. -/
def Bound (c : Core) (sid : SessionId) (p : PlayerId) : Prop :=
  ∃ ses, c.sessions.lookup sid = some ses ∧ ses.closed = false ∧ ses.playerId = p

/-- `get_session` finds a session object for the player. -/
def Resolves (c : Core) (p : PlayerId) : Prop :=
  ∃ sid, c.playerManager.players.lookup p = some sid ∧ c.Alive sid

/-- The player state manager holds the player `Offline` since `t`. -/
def OfflineSince (c : Core) (p : PlayerId) (t : Time) : Prop :=
  ∃ st, c.playerStateManager.states.lookup p = some st ∧ st.connState = .offline ∧
    st.disconnectedTime = t

/-- The player state manager holds the player `Offline`. -/
def Offline (c : Core) (p : PlayerId) : Prop :=
  ∃ st, c.playerStateManager.states.lookup p = some st ∧ st.connState = .offline

instance (c : Core) (sid : SessionId) : Decidable (c.Alive sid) :=
  inferInstanceAs (Decidable (∃ ses ∈ c.sessions.lookup sid, ses.alive))

instance (c : Core) (sid : SessionId) : Decidable (c.Open sid) :=
  inferInstanceAs (Decidable (∃ ses ∈ c.sessions.lookup sid, ses.closed = false))

instance (c : Core) (sid : SessionId) (p : PlayerId) : Decidable (c.Bound sid p) :=
  inferInstanceAs (Decidable (∃ ses ∈ c.sessions.lookup sid, ses.closed = false ∧ ses.playerId = p))

instance (c : Core) (p : PlayerId) : Decidable (c.Resolves p) :=
  inferInstanceAs (Decidable (∃ sid ∈ c.playerManager.players.lookup p, c.Alive sid))

instance (c : Core) (p : PlayerId) (t : Time) : Decidable (c.OfflineSince p t) :=
  inferInstanceAs (Decidable (∃ st ∈ c.playerStateManager.states.lookup p,
    st.connState = .offline ∧ st.disconnectedTime = t))

instance (c : Core) (p : PlayerId) : Decidable (c.Offline p) :=
  inferInstanceAs (Decidable (∃ st ∈ c.playerStateManager.states.lookup p, st.connState = .offline))

/-- `st` is a runtime state with which `p` can be resumed by showing `token`. -/
def Resumable (c : Core) (p : PlayerId) (token : Bytes) (st : PlayerRuntimeState) : Prop :=
  c.playerStateManager.states.lookup p = some st ∧ st.token = token ∧ st.connState = .offline

/-- One player removed by a sweep. -/
def expire (c : Core) (p : PlayerId) : Except Fault Core :=
  (c.roomManager.removePlayer p).map fun roomManager => { c with
    roomManager := roomManager
    playerStateManager := c.playerStateManager.removePlayer p }

/-- The queue after a player joined and the players to be matched were popped. -/
def popped (c : Core) (p : PlayerId) : List PlayerId × MatchQueue :=
  (c.matchQueue.join p).tryPopMatchedPlayers 2

end Core

/-- What an event does to the core. -/
inductive Act
  | idle
  | accept (sid : SessionId)
  | login (sid : SessionId)
  /-- `p` joins the queue and waits. -/
  | wait (p : PlayerId)
  /-- `p` joins the queue and `players` get a room. -/
  | room (p : PlayerId) (players : List PlayerId)
  | resume (sid : SessionId) (p : PlayerId) (token : Bytes)
  | close (sid : SessionId) (now : Time)
  | release (sid : SessionId)
  /-- `players` are removed, in this order. -/
  | sweep (players : List PlayerId) (now : Time)

/-- The steps of the core. -/
inductive CoreStep : Core → Act → Core → Prop
  | idle (c : Core) : CoreStep c .idle c
  | accept {c : Core} {sid : SessionId} (hsid : sid ∉ c.sessions) :
      CoreStep c (.accept sid) { c with sessions := c.sessions.insert sid {} }
  | login {c : Core} {sid : SessionId} (hsid : c.Alive sid) :
      CoreStep c (.login sid) { c with
        nextPlayerId := toInt (c.nextPlayerId + 1)
        sessions := c.sessions.modify sid fun ses =>
          { ses with
            playerId := c.nextPlayerId
            token := LoginService.generateToken c.nextPlayerId }
        playerManager := c.playerManager.addPlayer c.nextPlayerId sid
        connectionManager := c.connectionManager.addSession sid }
  | wait {c : Core} {p : PlayerId} (hp : 0 < p) (hq : p ∉ c.matchQueue.inQueue)
      (hpop : (c.popped p).1 = []) :
      CoreStep c (.wait p) { c with matchQueue := (c.popped p).2 }
  | room {c : Core} {p : PlayerId} (hp : 0 < p) (hq : p ∉ c.matchQueue.inQueue)
      (hpop : (c.popped p).1 ≠ []) (hres : ∀ x ∈ (c.popped p).1, c.Resolves x) :
      CoreStep c (.room p (c.popped p).1) { c with
        matchQueue := (c.popped p).2
        roomManager := c.roomManager.insertRoom (c.popped p).1 }
  | resume {c : Core} {sid : SessionId} {p : PlayerId} {token : Bytes} {st : PlayerRuntimeState}
      {rm : RoomManager} (hsid : c.Alive sid) (hst : c.Resumable p token st)
      (hrm : c.roomManager.mark p .online = .ok rm) :
      CoreStep c (.resume sid p token) { c with
        sessions := c.sessions.modify sid fun ses => { ses with playerId := p, token := token }
        playerManager := c.playerManager.addPlayer p sid
        connectionManager := c.connectionManager.addSession sid
        roomManager := rm
        playerStateManager := c.playerStateManager.markOnline p }
  | close {c : Core} {sid : SessionId} {ses : Session} {now : Time} {rm : RoomManager}
      (hses : c.sessions.lookup sid = some ses) (hopen : ses.closed = false)
      (halive : ses.alive = true) (hrm : c.roomManager.mark ses.playerId .offline = .ok rm) :
      CoreStep c (.close sid now) { c with
        sessions := c.sessions.modify sid fun ses => { ses with closed := true }
        matchQueue := c.matchQueue.leave ses.playerId
        playerManager := c.playerManager.removePlayer ses.playerId
        connectionManager := c.connectionManager.removeSession sid
        playerStateManager := (c.playerStateManager.saveOnline ses.playerId
          (c.roomManager.getRoomIdByPlayer ses.playerId) ses.token).markDisconnected ses.playerId now
        roomManager := rm }
  | release {c : Core} {sid : SessionId} {ses : Session} (hses : c.sessions.lookup sid = some ses)
      (hclosed : ses.closed = true) (hconn : sid ∉ c.connectionManager.sessions) :
      CoreStep c (.release sid) { c with
        sessions := c.sessions.modify sid fun ses => { ses with alive := false } }
  | sweep {c c' : Core} {players : List PlayerId} {now : Time} (hnd : players.Nodup)
      (hmem : ∀ p, p ∈ players ↔ ∃ t, c.OfflineSince p t ∧ 30 < elapsedSeconds now t)
      (hfold : players.foldlM Core.expire c = .ok c') :
      CoreStep c (.sweep players now) c'

/-- What a sweep is, as a step of the core. -/
theorem CoreStep.of_sweep {c c' : Core} {ps : List PlayerId} {now : Time}
    (h : CoreStep c (.sweep ps now) c') :
    (∀ p, p ∈ ps ↔ ∃ t, c.OfflineSince p t ∧ 30 < elapsedSeconds now t) ∧
      ps.foldlM Core.expire c = .ok c' := by
  cases h with
  | sweep _ hmem hfold => exact ⟨hmem, hfold⟩

/-- Who resumes was `Offline`. -/
theorem CoreStep.of_resume {c c' : Core} {sid : SessionId} {p : PlayerId} {token : Bytes}
    (h : CoreStep c (.resume sid p token) c') : c.Offline p := by
  cases h with
  | @resume _ _ _ st _ _ hst _ => exact ⟨st, hst.1, hst.2.2⟩

/-- Resuming leaves the map of players to rooms as it is. -/
theorem CoreStep.playerRoomMap_resume {c c' : Core} {sid : SessionId} {p : PlayerId}
    {token : Bytes} (h : CoreStep c (.resume sid p token) c') :
    c'.roomManager.playerRoomMap = c.roomManager.playerRoomMap := by
  cases h with
  | resume _ _ hrm => exact (RoomManager.playerRoomMap_mark hrm).1

/-! ### What the updates do to the predicates -/

namespace Core

variable {c c' : Core}

theorem Bound.isOpen {sid : SessionId} {p : PlayerId} (h : c.Bound sid p) : c.Open sid :=
  let ⟨ses, hses, hopen, _⟩ := h
  ⟨ses, hses, hopen⟩

theorem open_iff_bound {sid : SessionId} : c.Open sid ↔ ∃ p, c.Bound sid p :=
  ⟨fun ⟨ses, hses, hopen⟩ => ⟨ses.playerId, ses, hses, hopen, rfl⟩, fun ⟨_, hb⟩ => hb.isOpen⟩

/-- A session has one `player_id_`. -/
theorem Bound.unique {sid : SessionId} {p q : PlayerId} (h : c.Bound sid p) (h' : c.Bound sid q) :
    p = q := by
  obtain ⟨ses, hses, -, rfl⟩ := h
  obtain ⟨ses', hses', -, rfl⟩ := h'
  rw [Option.some.inj (hses.symm.trans hses')]

theorem bound_congr (h : c'.sessions = c.sessions) (sid : SessionId) (p : PlayerId) :
    c'.Bound sid p ↔ c.Bound sid p := by
  simp only [Bound, h]

theorem bound_insert {sid₀ : SessionId} (h : c'.sessions = c.sessions.insert sid₀ {})
    (sid : SessionId) (p : PlayerId) :
    c'.Bound sid p ↔ if sid = sid₀ then p = 0 else c.Bound sid p := by
  simp only [Bound, h, Table.lookup_insert']
  split_ifs
  · simpa using ⟨Eq.symm, Eq.symm⟩
  · rfl

/-- A session that is given a player is bound to that player, if it is open. -/
theorem bound_rebind {sid₀ : SessionId} {p₀ : PlayerId} {token : Bytes}
    (h : c'.sessions = c.sessions.modify sid₀ fun ses =>
      { ses with playerId := p₀, token := token }) (sid : SessionId) (p : PlayerId) :
    c'.Bound sid p ↔ if sid = sid₀ then c.Open sid ∧ p = p₀ else c.Bound sid p := by
  simp only [Bound, Open, h, Table.lookup_modify]
  split_ifs with hs
  · subst hs
    cases c.sessions.lookup sid with
    | none => simp
    | some ses => simpa using fun _ => ⟨Eq.symm, Eq.symm⟩
  · rfl

theorem bound_close {sid₀ : SessionId}
    (h : c'.sessions = c.sessions.modify sid₀ fun ses => { ses with closed := true })
    (sid : SessionId) (p : PlayerId) : c'.Bound sid p ↔ sid ≠ sid₀ ∧ c.Bound sid p := by
  simp only [Bound, h, Table.lookup_modify]
  split_ifs with hs
  · subst hs
    cases c.sessions.lookup sid <;> simp
  · simp [hs]

theorem bound_release {sid₀ : SessionId}
    (h : c'.sessions = c.sessions.modify sid₀ fun ses => { ses with alive := false })
    (sid : SessionId) (p : PlayerId) : c'.Bound sid p ↔ c.Bound sid p := by
  simp only [Bound, h, Table.lookup_modify]
  split_ifs with hs
  · subst hs
    cases c.sessions.lookup sid <;> simp
  · rfl

/-- A session after an accept is new or one from before. -/
theorem session_insert {sid₀ : SessionId} (h : c'.sessions = c.sessions.insert sid₀ {})
    {sid : SessionId} {ses : Session} (hses : c'.sessions.lookup sid = some ses) :
    ses = {} ∨ c.sessions.lookup sid = some ses := by
  rw [h, Table.lookup_insert'] at hses
  split_ifs at hses
  · exact .inl (Option.some.inj hses).symm
  · exact .inr hses

/-- A session after a login or a reconnect has the id and token given or is one from before. -/
theorem session_rebind {sid₀ : SessionId} {p₀ : PlayerId} {token : Bytes}
    (h : c'.sessions = c.sessions.modify sid₀ fun ses =>
      { ses with playerId := p₀, token := token }) {sid : SessionId} {ses : Session}
    (hses : c'.sessions.lookup sid = some ses) :
    (ses.playerId = p₀ ∧ ses.token = token) ∨ c.sessions.lookup sid = some ses := by
  rw [h, Table.lookup_modify] at hses
  split_ifs at hses
  · obtain ⟨ses₀, -, rfl⟩ := Option.map_eq_some_iff.1 hses
    exact .inl ⟨rfl, rfl⟩
  · exact .inr hses

/-- Other updates of a session leave the id and token as they are. -/
theorem session_modify {sid₀ : SessionId} {f : Session → Session}
    (h : c'.sessions = c.sessions.modify sid₀ f)
    (hf : ∀ ses, (f ses).playerId = ses.playerId ∧ (f ses).token = ses.token)
    {sid : SessionId} {ses : Session} (hses : c'.sessions.lookup sid = some ses) :
    ∃ ses₀, c.sessions.lookup sid = some ses₀ ∧ ses.playerId = ses₀.playerId ∧
      ses.token = ses₀.token := by
  rw [h, Table.lookup_modify] at hses
  split_ifs at hses with hs
  · obtain ⟨ses₀, hses₀, rfl⟩ := Option.map_eq_some_iff.1 hses
    exact ⟨ses₀, hs ▸ hses₀, hf ses₀⟩
  · exact ⟨ses, hses, rfl, rfl⟩

theorem session_close {sid₀ : SessionId}
    (h : c'.sessions = c.sessions.modify sid₀ fun ses => { ses with closed := true })
    {sid : SessionId} {ses : Session} (hses : c'.sessions.lookup sid = some ses) :
    ∃ ses₀, c.sessions.lookup sid = some ses₀ ∧ ses.playerId = ses₀.playerId ∧
      ses.token = ses₀.token := session_modify h (fun _ => ⟨rfl, rfl⟩) hses

theorem session_release {sid₀ : SessionId}
    (h : c'.sessions = c.sessions.modify sid₀ fun ses => { ses with alive := false })
    {sid : SessionId} {ses : Session} (hses : c'.sessions.lookup sid = some ses) :
    ∃ ses₀, c.sessions.lookup sid = some ses₀ ∧ ses.playerId = ses₀.playerId ∧
      ses.token = ses₀.token := session_modify h (fun _ => ⟨rfl, rfl⟩) hses

theorem alive_insert {sid₀ : SessionId} (h : c'.sessions = c.sessions.insert sid₀ {})
    (sid : SessionId) : c'.Alive sid ↔ sid = sid₀ ∨ c.Alive sid := by
  simp only [Alive, h, Table.lookup_insert']
  split_ifs with hs <;> simp [hs]

/-- Whether an object exists is changed by its release alone. -/
theorem alive_modify {sid₀ : SessionId} {f : Session → Session}
    (h : c'.sessions = c.sessions.modify sid₀ f) (hf : ∀ ses, (f ses).alive = ses.alive)
    (sid : SessionId) : c'.Alive sid ↔ c.Alive sid := by
  simp only [Alive, h, Table.lookup_modify]
  split_ifs with hs
  · subst hs
    cases c.sessions.lookup sid <;> simp [hf]
  · rfl

theorem alive_rebind {sid₀ : SessionId} {p₀ : PlayerId} {token : Bytes}
    (h : c'.sessions = c.sessions.modify sid₀ fun ses =>
      { ses with playerId := p₀, token := token }) (sid : SessionId) :
    c'.Alive sid ↔ c.Alive sid := alive_modify h (fun _ => rfl) sid

theorem alive_close {sid₀ : SessionId}
    (h : c'.sessions = c.sessions.modify sid₀ fun ses => { ses with closed := true })
    (sid : SessionId) : c'.Alive sid ↔ c.Alive sid := alive_modify h (fun _ => rfl) sid

theorem alive_release {sid₀ : SessionId}
    (h : c'.sessions = c.sessions.modify sid₀ fun ses => { ses with alive := false })
    (sid : SessionId) : c'.Alive sid ↔ sid ≠ sid₀ ∧ c.Alive sid := by
  simp only [Alive, h, Table.lookup_modify]
  split_ifs with hs
  · subst hs
    cases c.sessions.lookup sid <;> simp
  · simp [hs]

theorem offline_iff {p : PlayerId} : c.Offline p ↔ ∃ t, c.OfflineSince p t :=
  ⟨fun ⟨st, hst, hoff⟩ => ⟨st.disconnectedTime, st, hst, hoff, rfl⟩,
    fun ⟨_, st, hst, hoff, _⟩ => ⟨st, hst, hoff⟩⟩

/-- The close callback makes the player `Offline`, as of now. -/
theorem offlineSince_close {p₀ : PlayerId} {roomId : RoomId} {token : Bytes} {now : Time}
    (h : c'.playerStateManager =
      (c.playerStateManager.saveOnline p₀ roomId token).markDisconnected p₀ now)
    (p : PlayerId) (t : Time) :
    c'.OfflineSince p t ↔ if p = p₀ then t = now else c.OfflineSince p t := by
  simp only [OfflineSince, h, PlayerStateManager.lookup_disconnect]
  split_ifs <;> simp [eq_comm]

theorem offlineSince_resume {p₀ : PlayerId}
    (h : c'.playerStateManager = c.playerStateManager.markOnline p₀) (p : PlayerId) (t : Time) :
    c'.OfflineSince p t ↔ p ≠ p₀ ∧ c.OfflineSince p t := by
  simp only [OfflineSince, h, PlayerStateManager.lookup_markOnline]
  split_ifs with hp
  · subst hp
    cases c.playerStateManager.states.lookup p <;> simp
  · simp [hp]

theorem offline_close {p₀ : PlayerId} {roomId : RoomId} {token : Bytes} {now : Time}
    (h : c'.playerStateManager =
      (c.playerStateManager.saveOnline p₀ roomId token).markDisconnected p₀ now)
    (p : PlayerId) : c'.Offline p ↔ p = p₀ ∨ c.Offline p := by
  simp only [offline_iff, offlineSince_close h]
  split_ifs with hp <;> simp [hp]

theorem offline_resume {p₀ : PlayerId}
    (h : c'.playerStateManager = c.playerStateManager.markOnline p₀) (p : PlayerId) :
    c'.Offline p ↔ p ≠ p₀ ∧ c.Offline p := by
  simp only [offline_iff, offlineSince_resume h, exists_and_left]

end Core

/-! ### What a sweep does -/

namespace Core

theorem expire_ok {c c' : Core} {p : PlayerId} (h : c.expire p = .ok c') :
    ∃ rm, c.roomManager.removePlayer p = .ok rm ∧ c' = { c with
      roomManager := rm
      playerStateManager := c.playerStateManager.removePlayer p } := by
  unfold expire at h
  cases hrm : c.roomManager.removePlayer p with
  | error f => rw [hrm] at h; cases h
  | ok rm => rw [hrm] at h; exact ⟨rm, rfl, (Except.ok.inj h).symm⟩

/-- Induction along the players a sweep removes. -/
theorem sweep_induction {P : Core → Prop} {ps : List PlayerId} {c c' : Core}
    (h : ps.foldlM expire c = .ok c') (h₀ : P c)
    (hstep : ∀ {c p c'}, P c → p ∈ ps → c.expire p = .ok c' → P c') : P c' := by
  induction ps generalizing c with
  | nil => exact Except.ok.inj h ▸ h₀
  | cons p ps ih =>
    rw [List.foldlM_cons] at h
    cases he : c.expire p with
    | error f => rw [he] at h; cases h
    | ok c₁ =>
      rw [he] at h
      exact ih h (hstep h₀ (List.mem_cons_self ..) he)
        fun hP hq hexp => hstep hP (List.mem_cons_of_mem _ hq) hexp

/-- A sweep changes the rooms and the runtime states only. -/
theorem sweep_frame {ps : List PlayerId} {c c' : Core} (h : ps.foldlM expire c = .ok c') :
    c' = { c with
      roomManager := c'.roomManager
      playerStateManager := c'.playerStateManager } := by
  refine sweep_induction (P := fun c' => c' = { c with
    roomManager := c'.roomManager
    playerStateManager := c'.playerStateManager }) h rfl fun hP _ hexp => ?_
  obtain ⟨rm, -, rfl⟩ := expire_ok hexp
  rw [hP]

theorem sweep_nextRoomId {ps : List PlayerId} {c c' : Core} (h : ps.foldlM expire c = .ok c') :
    c'.roomManager.nextRoomId = c.roomManager.nextRoomId := by
  refine sweep_induction (P := fun c' => c'.roomManager.nextRoomId = c.roomManager.nextRoomId)
    h rfl fun hP _ hexp => ?_
  obtain ⟨rm, hrm, rfl⟩ := expire_ok hexp
  rcases RoomManager.removePlayer_ok hrm with ⟨-, rfl⟩ | ⟨_, _, -, -, hnext, -⟩
  · exact hP
  · exact hnext.trans hP

/-- The players of the sweep lose their runtime state and their map entry. -/
theorem sweep_lookup {ps : List PlayerId} {c c' : Core} (h : ps.foldlM expire c = .ok c')
    (q : PlayerId) :
    c'.playerStateManager.states.lookup q =
        (if q ∈ ps then none else c.playerStateManager.states.lookup q) ∧
      c'.roomManager.playerRoomMap.lookup q =
        if q ∈ ps then none else c.roomManager.playerRoomMap.lookup q := by
  induction ps generalizing c with
  | nil =>
    obtain rfl := Except.ok.inj h
    simp
  | cons p ps ih =>
    rw [List.foldlM_cons] at h
    cases he : c.expire p with
    | error f => rw [he] at h; cases h
    | ok c₁ =>
      rw [he] at h
      obtain ⟨hs, hm⟩ := ih h
      obtain ⟨rm, hrm, rfl⟩ := expire_ok he
      have hmap : rm.playerRoomMap.lookup q =
          if q = p then none else c.roomManager.playerRoomMap.lookup q := by
        rcases RoomManager.removePlayer_ok hrm with ⟨hp, rfl⟩ | ⟨_, _, -, -, -, hmap, -⟩
        · split_ifs with hq
          · rw [hq, hp]
          · rfl
        · rw [hmap, Table.lookup_erase']
      rw [hs, hm, hmap, PlayerStateManager.lookup_removePlayer]
      by_cases hq : q = p <;> simp [hq]

theorem mem_states_sweep {ps : List PlayerId} {c c' : Core} (h : ps.foldlM expire c = .ok c')
    (p : PlayerId) :
    p ∈ c'.playerStateManager.states ↔ p ∉ ps ∧ p ∈ c.playerStateManager.states := by
  rw [Table.mem_iff_isSome, (sweep_lookup h p).1, Table.mem_iff_isSome]
  split_ifs with hp <;> simp [hp]

theorem mem_playerRoomMap_sweep {ps : List PlayerId} {c c' : Core}
    (h : ps.foldlM expire c = .ok c') (p : PlayerId) :
    p ∈ c'.roomManager.playerRoomMap ↔ p ∉ ps ∧ p ∈ c.roomManager.playerRoomMap := by
  rw [Table.mem_iff_isSome, (sweep_lookup h p).2, Table.mem_iff_isSome]
  split_ifs with hp <;> simp [hp]

theorem offlineSince_sweep {ps : List PlayerId} {c c' : Core} (h : ps.foldlM expire c = .ok c')
    (p : PlayerId) (t : Time) : c'.OfflineSince p t ↔ p ∉ ps ∧ c.OfflineSince p t := by
  simp only [OfflineSince, (sweep_lookup h p).1]
  split_ifs with hp <;> simp [hp]

theorem offline_sweep {ps : List PlayerId} {c c' : Core} (h : ps.foldlM expire c = .ok c')
    (p : PlayerId) : c'.Offline p ↔ p ∉ ps ∧ c.Offline p := by
  simp only [offline_iff, offlineSince_sweep h, exists_and_left]

end Core

namespace Server

/-- What the event does to the core of the state it is handled in. -/
def act (s : Server) : Event → Act
  | .accept sid _ => .accept sid
  | .request sid (.login req) _ => if req.username.isEmpty then .idle else .login sid
  | .request _ (.match req) _ =>
    let p := toInt req.playerId
    if p ≤ 0 then .idle
    else if s.matchQueue.contains p then .idle
    else if (s.core.popped p).1.isEmpty then .wait p else .room p (s.core.popped p).1
  | .request sid (.reconnect req) _ =>
    match s.playerStateManager.getState (toInt req.playerId) with
    | none => .idle
    | some st =>
      if st.token ≠ req.token then .idle
      else if st.connState ≠ .offline then .idle
      else .resume sid (toInt req.playerId) req.token
  | .request _ _ _ => .idle
  | .close sid now => if (s.session sid).closed then .idle else .close sid now.steady
  | .release sid => .release sid
  | .sweep order now =>
    .sweep (s.playerStateManager.getReconnectTimeoutPlayers order now.steady 30) now.steady

end Server
end GameServer
