/-
# The lifecycle of a player

Seen from outside, a player is a small automaton (`Life`): a login issues the id and
binds it to a connection, closing that connection leaves it offline from that moment, a
reconnect binds it again, and a sweep more than 30 seconds later ends it (`Life.Step`).
The server has no such automaton.  It has the id and token fields of the sessions,
entries in two maps, an insert that keeps what is stored, and erasures by id.

`Core.Tracks` relates the two, and `Core.Tracks.step` is the simulation: what an act
does to a player (`Act.fate`) is a step of the automaton or nothing, and the relation is
kept.  `History.life` is the state of the automaton, read off the history as the last
thing that happened to the player, so the simulation makes it the answer to whether a
reconnect is accepted and whether a sweep removes the player (`reconnect_lifecycle`).
-/

import GameServer.Connectivity
import GameServer.Resumption

namespace GameServer

/-! ### The automaton -/

/-- Where a player is in its life. -/
inductive Life
  | unissued
  | bound
  | offline (since : Time)
  | gone
  deriving DecidableEq

/-- The steps of a life. -/
inductive Life.Step : Life → Life → Prop
  | issue : Step .unissued .bound
  | close (now : Time) : Step .bound (.offline now)
  | resume (since : Time) : Step (.offline since) .bound
  | expire {since now : Time} (h : 30 < elapsedSeconds now since) : Step (.offline since) .gone

/-- What an act does to the player `p`: a login that issues `p` or a reconnect of `p`
binds it, the close of a session with the player id `p` makes it offline, and a sweep
that removes `p` ends it. -/
def Act.fate (c : Core) (p : PlayerId) : Act → Option Life
  | .login _ => if c.nextPlayerId = p then some .bound else none
  | .resume _ q _ => if q = p then some .bound else none
  | .close sid now =>
    if (c.sessions.lookup sid).any fun ses => ses.playerId = p then some (.offline now) else none
  | .sweep ps _ => if p ∈ ps then some .gone else none
  | _ => none

/-- The life of a player after a history: the last thing that happened to it. -/
def History.life (tr : History) (p : PlayerId) : Life :=
  (tr.findSome? fun x => (x.1.act x.2).fate x.1.core p).getD .unissued

theorem life_cons (tr : History) (s : Server) (e : Event) (p : PlayerId) :
    History.life ((s, e) :: tr) p = ((s.act e).fate s.core p).getD (tr.life p) := by
  rw [History.life, List.findSome?_cons]
  cases (s.act e).fate s.core p <;> rfl

/-! ### The simulation -/

/-- What the server holds of a player at each point of its life. -/
def Core.Tracks (c : Core) (p : PlayerId) : Life → Prop
  | .unissued => ¬ c.Known p
  | .bound => c.Known p ∧ ¬ c.Offline p
  | .offline t => c.OfflineSince p t
  | .gone => c.Known p ∧ p ∉ c.playerStateManager.states ∧ p ∉ c.playerManager.players

namespace Core

variable {c c' : Core} {p : PlayerId} {l : Life}

theorem OfflineSince.unique {t t' : Time} (h : c.OfflineSince p t) (h' : c.OfflineSince p t') :
    t = t' := by
  obtain ⟨st, hst, -, rfl⟩ := h
  obtain ⟨st', hst', -, rfl⟩ := h'
  rw [Option.some.inj (hst.symm.trans hst')]

theorem OfflineSince.mem_states {t : Time} (h : c.OfflineSince p t) :
    p ∈ c.playerStateManager.states :=
  let ⟨_, hst, _⟩ := h
  Finmap.mem_of_lookup_eq_some hst

/-- **A player is held `Offline` since `t` exactly when its life says so.** -/
theorem Tracks.offlineSince_iff (h : c.Tracks p l) (hw : WellBound c) (t : Time) :
    c.OfflineSince p t ↔ l = .offline t := by
  constructor
  · intro hoff
    cases l with
    | unissued => exact absurd (hw.offline_known (offline_iff.2 ⟨t, hoff⟩)) h
    | bound => exact absurd (offline_iff.2 ⟨t, hoff⟩) h.2
    | offline t' => rw [OfflineSince.unique hoff h]
    | gone => exact absurd hoff.mem_states h.2.1
  · rintro rfl
    exact h

/-- What the relation depends on. -/
theorem Tracks.congr (h : c.Tracks p l) (hk : c'.Known p ↔ c.Known p)
    (hoff : ∀ t, c'.OfflineSince p t ↔ c.OfflineSince p t)
    (hst : p ∈ c'.playerStateManager.states ↔ p ∈ c.playerStateManager.states)
    (hpl : p ∈ c'.playerManager.players ↔ p ∈ c.playerManager.players) : c'.Tracks p l := by
  cases l with
  | unissued => exact mt hk.1 h
  | bound =>
    refine ⟨hk.2 h.1, fun h' => h.2 ?_⟩
    obtain ⟨t, ht⟩ := offline_iff.1 h'
    exact offline_iff.2 ⟨t, (hoff t).1 ht⟩
  | offline t => exact (hoff t).2 h
  | gone => exact ⟨hk.2 h.1, mt hst.1 h.2.1, mt hpl.1 h.2.2⟩

/-- An open session of a player is possible only while the player is bound. -/
theorem Tracks.eq_bound (h : c.Tracks p l) (hw : WellBound c) (hp : p ≠ 0) {sid : SessionId}
    (hb : c.Bound sid p) : l = .bound := by
  cases l with
  | unissued => exact absurd (hw.bound_known hb) h
  | bound => rfl
  | offline t => exact absurd hb (hw.not_bound_of_offline hp (offline_iff.2 ⟨t, h⟩))
  | gone => exact absurd (Finmap.mem_of_lookup_eq_some (hw.bound hb hp)) h.2.2

theorem Tracks.eq_offline (h : c.Tracks p l) (hw : WellBound c) (hoff : c.Offline p) :
    ∃ t, l = .offline t :=
  let ⟨t, ht⟩ := offline_iff.1 hoff
  ⟨t, (h.offlineSince_iff hw t).1 ht⟩

/-- The state after what an act does to the player: related, and reached by a step of
the automaton or by none. -/
def Follows (c' : Core) (p : PlayerId) (l l' : Life) : Prop :=
  c'.Tracks p l' ∧ (l' = l ∨ Life.Step l l')

theorem Tracks.login (h : c.Tracks p l) (hw : WellBound c) (hp : p ≠ 0) (sid : SessionId)
    (hr : toInt (c.nextPlayerId + 1) = c.nextPlayerId + 1) :
    Follows { c with
      nextPlayerId := toInt (c.nextPlayerId + 1)
      sessions := c.sessions.modify sid fun ses =>
        { ses with
          playerId := c.nextPlayerId
          token := LoginService.generateToken c.nextPlayerId }
      playerManager := c.playerManager.addPlayer c.nextPlayerId sid
      connectionManager := c.connectionManager.addSession sid }
      p l (((Act.login sid).fate c p).getD l) := by
  rw [hr, Act.fate]
  split_ifs with hnext
  · -- Nobody has met the id, so its life has not begun.
    subst hnext
    obtain rfl : l = .unissued := by
      cases l with
      | unissued => rfl
      | bound => exact absurd h.1 hw.next_not_known
      | offline t => exact absurd (hw.offline_known (offline_iff.2 ⟨t, h⟩)) hw.next_not_known
      | gone => exact absurd h.1 hw.next_not_known
    exact ⟨⟨.inr ⟨hw.next, lt_add_one _⟩, fun hoff => h (hw.offline_known (c := c) hoff)⟩,
      .inr .issue⟩
  · refine ⟨h.congr ?_ (fun _ => Iff.rfl) Iff.rfl
      (Finmap.mem_insert.trans (or_iff_right (Ne.symm hnext))), .inl rfl⟩
    refine or_congr_right (and_congr_right fun _ => ?_)
    exact ⟨fun hlt => lt_of_le_of_ne (Int.lt_add_one_iff.1 hlt) (Ne.symm hnext),
      fun hlt => hlt.trans (lt_add_one _)⟩

theorem Tracks.resume (h : c.Tracks p l) (hw : WellBound c) {sid : SessionId} {q : PlayerId}
    {token : Bytes} {st : PlayerRuntimeState} (hst : c.Resumable q token st) (rm : RoomManager) :
    Follows { c with
      sessions := c.sessions.modify sid fun ses => { ses with playerId := q, token := token }
      playerManager := c.playerManager.addPlayer q sid
      connectionManager := c.connectionManager.addSession sid
      roomManager := rm
      playerStateManager := c.playerStateManager.markOnline q }
      p l (((Act.resume sid q token).fate c p).getD l) := by
  rw [Act.fate]
  split_ifs with hq
  · subst hq
    have hoff : c.Offline q := ⟨st, hst.1, hst.2.2⟩
    obtain ⟨t, rfl⟩ := h.eq_offline hw hoff
    exact ⟨⟨hw.offline_known hoff, fun hoff' => ((offline_resume rfl q).1 hoff').1 rfl⟩,
      .inr (.resume t)⟩
  · exact ⟨h.congr Iff.rfl
      (fun t => (offlineSince_resume rfl p t).trans (and_iff_right (Ne.symm hq)))
      (Table.mem_modify ..) (Finmap.mem_insert.trans (or_iff_right (Ne.symm hq))), .inl rfl⟩

theorem Tracks.close (h : c.Tracks p l) (hw : WellBound c) (hp : p ≠ 0) {sid : SessionId}
    {ses : Session} {now : Time} (hses : c.sessions.lookup sid = some ses)
    (hopen : ses.closed = false) (rm : RoomManager) :
    Follows { c with
      sessions := c.sessions.modify sid fun ses => { ses with closed := true }
      matchQueue := c.matchQueue.leave ses.playerId
      playerManager := c.playerManager.removePlayer ses.playerId
      connectionManager := c.connectionManager.removeSession sid
      playerStateManager := (c.playerStateManager.saveOnline ses.playerId
        (c.roomManager.getRoomIdByPlayer ses.playerId) ses.token).markDisconnected ses.playerId now
      roomManager := rm }
      p l (((Act.close sid now).fate c p).getD l) := by
  rw [Act.fate, hses, Option.any_some]
  split_ifs with hq
  · obtain rfl : ses.playerId = p := of_decide_eq_true hq
    obtain rfl := h.eq_bound hw hp ⟨ses, hses, hopen, rfl⟩
    exact ⟨(offlineSince_close rfl _ _).2 (by rw [if_pos rfl]), .inr (.close now)⟩
  · have hne : p ≠ ses.playerId := fun e => hq (decide_eq_true e.symm)
    refine ⟨h.congr Iff.rfl (fun t => (offlineSince_close rfl p t).trans (by rw [if_neg hne])) ?_
      (Finmap.mem_erase.trans (and_iff_right hne)), .inl rfl⟩
    exact (PlayerStateManager.mem_disconnect ..).trans (or_iff_right hne)

theorem Tracks.sweep (h : c.Tracks p l) (hw : WellBound c) {ps : List PlayerId} {now : Time}
    (hmem : ∀ p, p ∈ ps ↔ ∃ t, c.OfflineSince p t ∧ 30 < elapsedSeconds now t)
    (hfold : ps.foldlM expire c = .ok c') :
    c'.Follows p l (((Act.sweep ps now).fate c p).getD l) := by
  have hplayers : c'.playerManager = c.playerManager := by rw [sweep_frame hfold]
  have hknown : c'.Known p ↔ c.Known p := by rw [sweep_frame hfold]; rfl
  have hstates := mem_states_sweep hfold p
  rw [Act.fate]
  split_ifs with hps
  · obtain ⟨t, ht, hlate⟩ := (hmem p).1 hps
    obtain rfl := (h.offlineSince_iff hw t).1 ht
    have hoff := offline_iff.2 ⟨t, ht⟩
    refine ⟨⟨hknown.2 (hw.offline_known hoff), fun hin => (hstates.1 hin).1 hps, fun hin => ?_⟩,
      .inr (.expire hlate)⟩
    exact hw.online (hplayers ▸ hin) hoff
  · exact ⟨h.congr hknown (fun t => (offlineSince_sweep hfold p t).trans (and_iff_right hps))
      (hstates.trans (and_iff_right hps)) (by rw [hplayers]), .inl rfl⟩

/-- **The server simulates the automaton.** -/
theorem Tracks.step {a : Act} (h : c.Tracks p l) (hw : WellBound c) (hp : p ≠ 0)
    (hr : LoginInRange c a) (hs : CoreStep c a c') : c'.Follows p l ((a.fate c p).getD l) := by
  cases hs with
  | login _ => exact h.login hw hp _ (hr rfl)
  | resume _ hst _ => exact h.resume hw hst _
  | close hses hopen _ _ => exact h.close hw hp hses hopen _
  | sweep _ hmem hfold => exact h.sweep hw hmem hfold
  | idle | accept _ | wait _ _ _ | room _ _ _ _ | release _ _ _ =>
    exact ⟨h.congr Iff.rfl (fun _ => Iff.rfl) Iff.rfl Iff.rfl, .inl rfl⟩

end Core

/-- At the end of a run the server tracks the life of every player. -/
theorem tracks_of_run {tr : History} {s : Server} (h : server.Run tr s)
    (hn : tr.logins < 2 ^ 31 - 10000) {p : PlayerId} (hp : p ≠ 0) :
    s.core.Tracks p (tr.life p) := by
  induction h with
  | nil =>
    rintro (h0 | ⟨hle, hlt⟩)
    · exact hp h0
    · exact absurd (lt_of_le_of_lt hle hlt) (lt_irrefl _)
  | @cons tr s s' e hrun hs ih =>
    have hle : History.logins tr ≤ History.logins ((s, e) :: tr) :=
      logins_le_of_suffix (List.suffix_cons ..)
    have hr := loginsInRange (hrun.cons hs) hn (s, e) (List.mem_cons_self ..)
    have hn' := lt_of_le_of_lt hle hn
    rw [life_cons]
    exact ((ih hn').step (WellBound.of_run hrun hn') hp hr (Server.step_core hs)).1

/-! ### What the lifecycle decides -/

/-- The step is a ReconnectReq for `p`, and the reply accepts it. -/
def Resumes (x : Server × Event) (p : PlayerId) : Prop :=
  ∃ sid req now s' roomId, x.2 = .request sid (.reconnect req) now ∧ toInt req.playerId = p ∧
    server.step x.1 x.2 s' ∧ x.1.Accepts s' sid p roomId

theorem Resumes.act_eq {x : Server × Event} {p : PlayerId} (h : Resumes x p) :
    ∃ sid token, x.1.act x.2 = .resume sid p token := by
  obtain ⟨sid, req, now, s', roomId, he, rfl, hs, hacc⟩ := h
  rw [he] at hs ⊢
  exact ⟨sid, req.token, (Server.act_eq_resume_iff hs).1 ⟨roomId, hacc⟩⟩

/-- The step is the close callback of a session with the player id `p`. -/
def Closes (x : Server × Event) (p : PlayerId) : Prop :=
  ∃ sid now ses, x.1.act x.2 = .close sid now ∧ x.1.sessions.lookup sid = some ses ∧
    ses.playerId = p

theorem closes_of_fate {x : Server × Event} {p : PlayerId} {t : Time}
    (h : (x.1.act x.2).fate x.1.core p = some (.offline t)) : Closes x p := by
  cases hact : x.1.act x.2 with
  | close sid now =>
    rw [hact, Act.fate] at h
    split_ifs at h with hses
    obtain ⟨ses, hlk, hp⟩ := (Option.any_eq_true _ _).1 hses
    exact ⟨sid, now, ses, hact, hlk, of_decide_eq_true hp⟩
  | login _ | resume _ _ _ | sweep _ _ =>
    rw [hact, Act.fate] at h
    split_ifs at h
    cases h
  | idle | accept _ | wait _ | room _ _ | release _ =>
    rw [hact] at h
    cases h

/-- **Between two reconnects of a player there is a close.** -/
theorem exists_close_between {tr : History} {s : Server} (h : server.Run tr s)
    (hn : tr.logins < 2 ^ 31 - 10000) {p : PlayerId} (hp : p ≠ 0) {tr₁ tr₂ tr₃ : History}
    {x y : Server × Event} (htr : tr = tr₁ ++ x :: tr₂ ++ y :: tr₃) (hx : Resumes x p)
    (hy : Resumes y p) : ∃ z ∈ tr₂, Closes z p := by
  subst htr
  have hsuf : x :: (tr₂ ++ y :: tr₃) <:+ tr₁ ++ x :: tr₂ ++ y :: tr₃ :=
    ⟨tr₁, by rw [List.append_assoc, List.cons_append]⟩
  obtain ⟨hrun, s', hs⟩ := h.step_of_suffix (t := x.1) (e := x.2) hsuf
  have hn' : History.logins (tr₂ ++ y :: tr₃) < 2 ^ 31 - 10000 :=
    lt_of_le_of_lt (logins_le_of_suffix ((List.suffix_cons ..).trans hsuf)) hn
  -- The later reconnect found the player offline, so a close came last before it.
  obtain ⟨sid, token, hact⟩ := hx.act_eq
  have hoff : x.1.core.Offline p := by
    have hstep := Server.step_core hs
    rw [hact] at hstep
    exact hstep.of_resume
  obtain ⟨t, hlife⟩ := (tracks_of_run hrun hn' hp).eq_offline (WellBound.of_run hrun hn') hoff
  obtain ⟨sid', token', hact'⟩ := hy.act_eq
  have hfate : (y.1.act y.2).fate y.1.core p = some .bound := by
    rw [hact', Act.fate, if_pos rfl]
  rw [History.life, List.findSome?_append, List.findSome?_cons, hfate] at hlife
  cases hlast : tr₂.findSome? fun x => (x.1.act x.2).fate x.1.core p with
  | none =>
    rw [hlast] at hlife
    cases hlife
  | some l =>
    rw [hlast] at hlife
    obtain ⟨z, hz, hzl⟩ := List.exists_of_findSome?_eq_some hlast
    have hl : l = .offline t := hlife
    exact ⟨z, hz, closes_of_fate (hzl.trans (congrArg some hl))⟩

/-- The step takes `p` out of the runtime states. -/
def Server.Removes (s s' : Server) (p : PlayerId) : Prop :=
  p ∈ s.playerStateManager.states ∧ p ∉ s'.playerStateManager.states

/-- **Reconnecting follows the lifecycle.**  As long as fewer than `2 ^ 31 - 10000`
logins were accepted, for every id `p` that was issued: a ReconnectReq for `p` is
accepted exactly when the last thing that happened to `p` is a close and the token is the
one issued with `p`; a sweep removes `p` exactly when it is a close more than 30 whole
seconds ago; and between two accepted reconnects for `p` there is a close of `p`.  As long
as the room counter stays in range too, the handlers of both return. -/
theorem reconnect_lifecycle {tr : History} {s : Server} (h : server.Run tr s)
    (hn : tr.logins < 2 ^ 31 - 10000) {p : PlayerId} (hp : p ∈ s.issued.map fun x => x.2.1) :
    (∀ sid req now s', server.step s (.request sid (.reconnect req) now) s' →
        toInt req.playerId = p →
          ((∃ roomId, s.Accepts s' sid p roomId) ↔
            (∃ t, tr.life p = .offline t) ∧ (p, req.token) ∈ s.issued.map Prod.snd)) ∧
      (∀ order now s', server.step s (.sweep order now) s' →
        (s.Removes s' p ↔ ∃ t, tr.life p = .offline t ∧ 30 < elapsedSeconds now.steady t)) ∧
      (∀ tr₁ tr₂ tr₃ x y, tr = tr₁ ++ x :: tr₂ ++ y :: tr₃ → Resumes x p → Resumes y p →
        ∃ z ∈ tr₂, Closes z p) ∧
      (tr.roomsCreated < 2 ^ 31 - 1 →
        (∀ sid req now, s.alive sid →
          ∃ s', server.step s (.request sid (.reconnect req) now) s') ∧
        ∀ order now, s.playerStateManager.states.Enumerates order →
          ∃ s', server.step s (.sweep order now) s') := by
  have hp0 : p ≠ 0 := by
    obtain ⟨x, hx, rfl⟩ := List.mem_map.1 hp
    have hle := (Server.issued_range h hn x hx).1
    exact fun h0 => absurd (h0 ▸ hle) (by decide)
  have hw := WellBound.of_run h hn
  have htracks := tracks_of_run h hn hp0
  have hident := Identified.of_run h
  refine ⟨fun sid req now s' hs hreq => ?_, fun order now s' hs => ?_,
    fun _ _ _ _ _ => exists_close_between h hn hp0, fun hr => ⟨fun sid req now halive => ?_,
      fun order now horder => (Linked.of_run h hn hr).step_sweep horder now⟩⟩
  · subst hreq
    simp only [Server.accepts_iff hs]
    constructor
    · rintro ⟨roomId, st, ⟨hlk, htoken, hoff⟩, -⟩
      refine ⟨htracks.eq_offline hw ⟨st, hlk, hoff⟩, ?_⟩
      rw [← htoken]
      exact (hident.state hlk).resolve_left fun h0 => hp0 h0.1
    · rintro ⟨⟨t, hlife⟩, hissued⟩
      obtain ⟨st, hlk, hoff, -⟩ := (htracks.offlineSince_iff hw t).2 hlife
      refine ⟨st.roomId, st, ⟨hlk, ?_, hoff⟩, rfl⟩
      rw [hident.token hissued]
      exact hident.token ((hident.state hlk).resolve_left fun h0 => hp0 h0.1)
  · obtain ⟨hmem, hfold⟩ := (Server.step_core hs).of_sweep
    have hlookup := (Core.sweep_lookup hfold p).1
    rw [Server.Removes, Table.not_mem_iff]
    simp only [← htracks.offlineSince_iff hw]
    rw [← hmem p]
    constructor
    · rintro ⟨hin, hout⟩
      by_contra hps
      rw [if_neg hps] at hlookup
      exact (Table.not_mem_iff ..).2 (hlookup.symm.trans hout) hin
    · intro hps
      rw [if_pos hps] at hlookup
      obtain ⟨t, ht, -⟩ := (hmem p).1 hps
      exact ⟨ht.mem_states, hlookup⟩
  · obtain ⟨rm, hrm⟩ := (Linked.of_run h hn hr).mark_isOk (toInt req.playerId) .online
    exact Server.step_reconnect now halive hrm

/-- A player who closed is let back in with the token issued. -/
theorem reconnect_lifecycle_player : ∃ (tr : History) (s s' : Server), server.Run tr s ∧
    tr.life 10000 = .offline 5 ∧ ∃ roomId, s.Accepts s' 1 10000 roomId := by
  obtain ⟨tr, s, s', h, hs, hn, hp, hlife, htoken⟩ := Server.exists_step
    (Q := fun tr s _ => tr.logins < 2 ^ 31 - 10000 ∧ 10000 ∈ s.issued.map (fun x => x.2.1) ∧
      tr.life 10000 = .offline 5 ∧ (10000, ascii "token_10000") ∈ s.issued.map Prod.snd)
    [.accept 0 {}, .request 0 (.login { username := [0x61] }) {}, .close 0 { steady := 5 },
      .accept 1 {}]
    (.request 1 (.reconnect { playerId := 10000, token := ascii "token_10000" }) {})
    (by decide +kernel)
  exact ⟨tr, s, s', h, hlife,
    ((reconnect_lifecycle h hn hp).1 1 _ _ s' hs (by decide)).2 ⟨⟨5, hlife⟩, htoken⟩⟩

end GameServer
