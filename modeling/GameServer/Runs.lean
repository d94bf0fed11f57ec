/-
# Runs of the server

What is said of runs in general: how many logins a history accepted and how many
rooms it created (`logins`, `roomsCreated`), which fix the two id counters
(`nextPlayerId_eq_toInt`), and what is sent.  The counters are atomic and wrap around at
the end of the range of `int`; before they do, they count (`nextPlayerId_eq`,
`nextRoomId_eq`), and `LoginInRange` and `RoomInRange` say that a step stays before it.

The identities that clients are given are read off the messages sent to them:
`Server.issued` lists the session, the player id and the token of every
`LoginResp` with code 0.  A step issues an identity exactly when it is a login
(`step_issued`), and a reconnect is answered with code 0 exactly when it is
accepted (`accepts_iff`).
-/

import GameServer.Refinement

namespace GameServer

/-! ### Counting -/

def Act.isLogin : Act → Bool
  | .login _ => true
  | _ => false

def Act.isRoom : Act → Bool
  | .room _ _ => true
  | _ => false

namespace History

/-- The number of logins that were accepted. -/
def logins (tr : History) : ℕ := tr.countP fun x => (x.1.act x.2).isLogin

/-- The number of rooms that were created. -/
def roomsCreated (tr : History) : ℕ := tr.countP fun x => (x.1.act x.2).isRoom

end History

/-- The act does not carry `next_player_id_` out of the range of `int`. -/
def LoginInRange (c : Core) (a : Act) : Prop :=
  a.isLogin → toInt (c.nextPlayerId + 1) = c.nextPlayerId + 1

/-- The act does not carry `next_room_id_` out of the range of `int`. -/
def RoomInRange (c : Core) (a : Act) : Prop :=
  a.isRoom → toInt (c.roomManager.nextRoomId + 1) = c.roomManager.nextRoomId + 1

/-- **Induction over the core.**  What every step of the core that meets `C` preserves
holds at the end of every run whose steps all meet `C`. -/
theorem core_invariant {P : Core → Prop} {C : Core → Act → Prop} (h₀ : P {})
    (hstep : ∀ {c a c'}, P c → C c a → CoreStep c a c' → P c') {tr : History} {s : Server}
    (h : server.Run tr s) (hC : ∀ x ∈ tr, C x.1.core (x.1.act x.2)) : P s.core :=
  Transition.System.Run.invariant_under (M := server) (P := fun s : Server => P s.core)
    (C := fun s e => C s.core (s.act e)) h₀
    (fun hP hC hs => hstep hP hC (Server.step_core hs)) h hC

/-- The player id counter after a step of the core. -/
theorem CoreStep.nextPlayerId_eq {c c' : Core} {a : Act} (h : CoreStep c a c') :
    c'.nextPlayerId = if a.isLogin then toInt (c.nextPlayerId + 1) else c.nextPlayerId := by
  cases h with
  | sweep _ _ hfold => rw [Core.sweep_frame hfold]; rfl
  | _ => rfl

/-- The room id counter after a step of the core. -/
theorem CoreStep.nextRoomId_eq {c c' : Core} {a : Act} (h : CoreStep c a c') :
    c'.roomManager.nextRoomId =
      if a.isRoom then toInt (c.roomManager.nextRoomId + 1) else c.roomManager.nextRoomId := by
  cases h with
  | resume _ _ hrm | close _ _ _ hrm => exact (RoomManager.playerRoomMap_mark hrm).2
  | sweep _ _ hfold => exact Core.sweep_nextRoomId hfold
  | _ => rfl

theorem logins_cons (tr : History) (s : Server) (e : Event) :
    History.logins ((s, e) :: tr) = tr.logins + if (s.act e).isLogin then 1 else 0 :=
  List.countP_cons ..

theorem roomsCreated_cons (tr : History) (s : Server) (e : Event) :
    History.roomsCreated ((s, e) :: tr) = tr.roomsCreated + if (s.act e).isRoom then 1 else 0 :=
  List.countP_cons ..

theorem logins_le_of_suffix {tr tr' : History} (h : tr' <:+ tr) : tr'.logins ≤ tr.logins :=
  h.sublist.countP_le

theorem roomsCreated_le_of_suffix {tr tr' : History} (h : tr' <:+ tr) :
    tr'.roomsCreated ≤ tr.roomsCreated := h.sublist.countP_le

/-- **The player id counter** counts the logins, and wraps around. -/
theorem nextPlayerId_eq_toInt {tr : History} {s : Server} (h : server.Run tr s) :
    s.nextPlayerId = toInt (10000 + tr.logins) := by
  induction h with
  | nil => rfl
  | @cons tr s s' e _ hs ih =>
    have hnext : s'.nextPlayerId = _ := (Server.step_core hs).nextPlayerId_eq
    rw [hnext, show s.core.nextPlayerId = s.nextPlayerId from rfl, ih, logins_cons, toInt_toInt_add]
    split_ifs
    · rw [Nat.cast_add, Nat.cast_one, add_assoc]
    · rw [Nat.add_zero]

/-- The player id counter counts the logins, as long as `int` has room for it. -/
theorem nextPlayerId_eq {tr : History} {s : Server} (h : server.Run tr s)
    (hn : tr.logins < 2 ^ 31 - 10000) : s.nextPlayerId = 10000 + tr.logins := by
  rw [nextPlayerId_eq_toInt h, toInt_of_lt (by omega) (by omega)]

/-- **The room id counter** counts the rooms, as long as `int` has room for it. -/
theorem nextRoomId_eq {tr : History} {s : Server} (h : server.Run tr s)
    (hn : tr.roomsCreated < 2 ^ 31 - 1) : s.roomManager.nextRoomId = 1 + tr.roomsCreated := by
  induction h with
  | nil => rfl
  | @cons tr s s' e _ hs ih =>
    have hnext : s'.roomManager.nextRoomId = _ := (Server.step_core hs).nextRoomId_eq
    rw [roomsCreated_cons] at hn ⊢
    have hprev := ih (by omega)
    rw [hnext, show s.core.roomManager.nextRoomId = s.roomManager.nextRoomId from rfl, hprev]
    split_ifs at hn ⊢
    · rw [toInt_of_lt (by omega) (by omega)]
      push_cast
      ring
    · simp

/-- The logins of a run stay in range when there are few enough of them. -/
theorem loginsInRange {tr : History} {s : Server} (h : server.Run tr s)
    (hn : tr.logins < 2 ^ 31 - 10000) : ∀ x ∈ tr, LoginInRange x.1.core (x.1.act x.2) := by
  induction h with
  | nil => exact fun x hx => absurd hx List.not_mem_nil
  | @cons tr s s' e hrun hs ih =>
    rw [logins_cons] at hn
    refine List.forall_mem_cons.2 ⟨fun hlogin => ?_, ih (by omega)⟩
    rw [if_pos hlogin] at hn
    rw [show s.core.nextPlayerId = 10000 + History.logins tr from nextPlayerId_eq hrun (by omega)]
    exact toInt_of_lt (by omega) (by omega)

/-- The rooms of a run stay in range when there are few enough of them. -/
theorem roomsInRange {tr : History} {s : Server} (h : server.Run tr s)
    (hn : tr.roomsCreated < 2 ^ 31 - 1) : ∀ x ∈ tr, RoomInRange x.1.core (x.1.act x.2) := by
  induction h with
  | nil => exact fun x hx => absurd hx List.not_mem_nil
  | @cons tr s s' e hrun hs ih =>
    rw [roomsCreated_cons] at hn
    refine List.forall_mem_cons.2 ⟨fun hroom => ?_, ih (by omega)⟩
    rw [if_pos hroom] at hn
    rw [show s.core.roomManager.nextRoomId = 1 + History.roomsCreated tr from
      nextRoomId_eq hrun (by omega)]
    exact toInt_of_lt (by omega) (by omega)

/-! ### Closing idle sessions -/

/-- A session object is destroyed by its release alone. -/
theorem CoreStep.alive {c c' : Core} {a : Act} (h : CoreStep c a c') {sid : SessionId}
    (ha : a ≠ .release sid) (halive : c.Alive sid) : c'.Alive sid := by
  cases h with
  | accept _ => exact (Core.alive_insert rfl sid).2 (.inr halive)
  | login _ | resume _ _ _ => exact (Core.alive_rebind rfl sid).2 halive
  | close _ _ _ _ => exact (Core.alive_close rfl sid).2 halive
  | release _ _ _ => exact (Core.alive_release rfl sid).2 ⟨fun e => ha (e ▸ rfl), halive⟩
  | sweep _ _ hfold =>
    rw [Core.sweep_frame hfold]
    exact halive
  | idle | wait _ _ _ | room _ _ _ _ => exact halive

/-- The connection manager holds the objects of its sessions. -/
theorem alive_of_connected {tr : History} {s : Server} (h : server.Run tr s) :
    ∀ sid ∈ s.connectionManager.sessions, s.core.Alive sid := by
  refine core_invariant (P := fun c => ∀ sid ∈ c.connectionManager.sessions, c.Alive sid)
    (C := fun _ _ => True) (fun sid hsid => absurd hsid (Finset.notMem_empty _))
    (fun {c a c'} hP _ hs => ?_) h fun _ _ => trivial
  have hkeep : ∀ sid ∈ c.connectionManager.sessions, a ≠ .release sid → c'.Alive sid :=
    fun sid hsid ha => hs.alive ha (hP sid hsid)
  cases hs with
  | login hsid | resume hsid _ _ =>
    intro sid hmem
    rcases Finset.mem_insert.1 hmem with rfl | hmem
    · exact (Core.alive_rebind rfl sid).2 hsid
    · exact hkeep sid hmem (by simp)
  | close _ _ _ _ => exact fun sid hmem => hkeep sid (Finset.mem_erase.1 hmem).2 (by simp)
  | release _ _ hconn =>
    refine fun sid hmem => hkeep sid hmem fun e => hconn ?_
    exact Act.release.inj e ▸ hmem
  | sweep _ _ hfold =>
    intro sid hmem
    rw [Core.sweep_frame hfold] at hmem
    exact hkeep sid hmem (by simp)
  | idle | accept _ | wait _ _ _ | room _ _ _ _ => exact fun sid hmem => hkeep sid hmem (by simp)

/-! ### Identities issued -/

/-- The identity a message gives to its receiver: a `LoginResp` with code 0 has one. -/
def Response.issued : Response → Option (PlayerId × Bytes)
  | .loginResp r => if r.code = 0 then some (r.playerId, r.token) else none
  | _ => none

/-- The identities issued so far, each with the session it was sent to. -/
def Server.issued (s : Server) : List (SessionId × PlayerId × Bytes) :=
  s.sent.filterMap fun x => x.2.issued.map (Prod.mk x.1)

/-- The identities an act issues. -/
def Act.issues (c : Core) : Act → List (SessionId × PlayerId × Bytes)
  | .login sid => [(sid, c.nextPlayerId, LoginService.generateToken c.nextPlayerId)]
  | _ => []

namespace Server

theorem issued_send {msg : Response} (h : msg.issued = none) (s : Server) (sid : SessionId) :
    (s.send sid msg).issued = s.issued := by
  simp [issued, send, h]

theorem issued_sendEach {msg : Response} (h : msg.issued = none) (s : Server)
    (f : PlayerId → SessionId) (ps : List PlayerId) :
    (s.sendEach (ps.map fun p => (f p, msg))).issued = s.issued := by
  simp [issued, sendEach, h, List.filterMap_map]

/-- **A step issues an identity exactly when it is a login**, and then the id that
was next and its token. -/
theorem step_issued {s s' : Server} {e : Event} (h : server.step s e s') :
    s'.issued = s.issued ++ (s.act e).issues s.core := by
  have hcase := handled_of_step h.2
  generalize s.act e = a at hcase ⊢
  clear h
  cases hcase with
  | accept | unregistered | closed | close | release | sweep => exact (List.append_nil _).symm
  | loginRefused | matchRefused | wait | heartbeat | reconnectRefused | resume | ranking =>
    exact (issued_send rfl ..).trans (List.append_nil _).symm
  | login =>
    simp only [issued, LoginService.sendLoginSuccess, send, List.filterMap_append]
    rfl
  | room =>
    exact ((issued_sendEach rfl ..).trans (issued_send rfl ..)).trans (List.append_nil _).symm
  | chat => exact (issued_sendEach rfl ..).trans (List.append_nil _).symm

/-- The ids issued so far are the ones the counter has passed. -/
theorem issued_range {tr : History} {s : Server} (h : server.Run tr s)
    (hn : tr.logins < 2 ^ 31 - 10000) :
    ∀ x ∈ s.issued, 10000 ≤ x.2.1 ∧ x.2.1 < s.nextPlayerId := by
  induction h with
  | nil => exact fun x hx => absurd hx List.not_mem_nil
  | @cons tr s s' e hrun hs ih =>
    have hle : History.logins tr ≤ History.logins ((s, e) :: tr) :=
      logins_le_of_suffix (List.suffix_cons ..)
    have hn' := lt_of_le_of_lt hle hn
    have hnext := nextPlayerId_eq (hrun.cons hs) hn
    have hprev := nextPlayerId_eq hrun hn'
    intro x hx
    rw [step_issued hs, List.mem_append] at hx
    rcases hx with hx | hx
    · refine ⟨(ih hn' x hx).1, (ih hn' x hx).2.trans_le ?_⟩
      rw [hprev, hnext]
      exact Int.add_le_add_left (Int.ofNat_le.2 hle) 10000
    · cases hact : s.act e with
      | login sid =>
        rw [hact, Act.issues, List.mem_singleton] at hx
        rw [logins_cons, hact, Act.isLogin, if_pos rfl] at hnext
        have hx : x.2.1 = s.nextPlayerId := by rw [hx]; rfl
        rw [hx, hprev, hnext]
        exact ⟨Int.le_add_of_nonneg_right (Int.natCast_nonneg _),
          Int.add_lt_add_left (Int.ofNat_lt.2 (Nat.lt_succ_self _)) 10000⟩
      | _ =>
        rw [hact] at hx
        cases hx

/-! ### Reconnecting -/

/-- What the step sent is one `ReconnectResp` with code 0, on `sid`, for `p` and
`roomId`. -/
def Accepts (s s' : Server) (sid : SessionId) (p : PlayerId) (roomId : RoomId) : Prop :=
  s'.sent = s.sent ++ [(sid, .reconnectResp
    { code := 0, message := ascii "reconnect_success", playerId := p, roomId := roomId })]

instance (s s' : Server) (sid : SessionId) (p : PlayerId) (roomId : RoomId) :
    Decidable (s.Accepts s' sid p roomId) := inferInstanceAs (Decidable (_ = _))

/-- **A ReconnectReq is accepted** exactly when a runtime state lets the player resume
with the token, and the reply has the room of that state. -/
theorem accepts_iff {s s' : Server} {sid : SessionId} {req : ReconnectReq} {now : Instant}
    (h : server.step s (.request sid (.reconnect req) now) s') (roomId : RoomId) :
    s.Accepts s' sid (toInt req.playerId) roomId ↔
      ∃ st, s.core.Resumable (toInt req.playerId) req.token st ∧ st.roomId = roomId := by
  have h : ReconnectService.handleReconnect (s.received sid now) sid req = .ok s' := h.2
  rcases handleReconnect_ok rfl h with ⟨hno, reason, rfl⟩ | ⟨st, rm, hst, -, rfl⟩
  · refine ⟨fun hacc => ?_, fun ⟨st, hst, _⟩ => absurd hst (hno st)⟩
    simp [Accepts, ReconnectService.sendReconnectFailed, send, received, updateLastActiveTime] at hacc
  · constructor
    · intro hacc
      simp [Accepts, ReconnectService.sendReconnectSuccess, send, received, updateLastActiveTime] at hacc
      exact ⟨st, hst, hacc⟩
    · rintro ⟨st', hst', rfl⟩
      obtain rfl := Option.some.inj (hst.1.symm.trans hst'.1)
      rfl

/-- A ReconnectReq that is accepted is the act of resuming, and no other is. -/
theorem act_eq_resume_iff {s s' : Server} {sid : SessionId} {req : ReconnectReq} {now : Instant}
    (h : server.step s (.request sid (.reconnect req) now) s') :
    (∃ roomId, s.Accepts s' sid (toInt req.playerId) roomId) ↔
      s.act (.request sid (.reconnect req) now) =
        .resume sid (toInt req.playerId) req.token := by
  simp only [accepts_iff h]
  rcases act_reconnect s sid req now with ⟨hno, hact⟩ | ⟨⟨st, hst⟩, hact⟩
  · rw [hact]
    exact ⟨fun ⟨_, st, hst, _⟩ => absurd hst (hno st), fun h => by cases h⟩
  · exact ⟨fun _ => hact, fun _ => ⟨st.roomId, st, hst, rfl⟩⟩

/-- What the step sent is one `ReconnectResp` with code 1, on `sid`, and nothing of the
core changed. -/
def Refuses (s s' : Server) (sid : SessionId) : Prop :=
  s'.core = s.core ∧ ∃ reason, s'.sent = s.sent ++ [(sid, .reconnectResp
    { message := reason, code := 1, playerId := (s.session sid).playerId })]

/-- A ReconnectReq that no runtime state allows is refused. -/
theorem step_refused {s : Server} {sid : SessionId} {req : ReconnectReq} (now : Instant)
    (halive : s.alive sid) (hno : ∀ st, ¬ s.core.Resumable (toInt req.playerId) req.token st) :
    ∃ s', server.step s (.request sid (.reconnect req) now) s' ∧ s.Refuses s' sid := by
  have hreply : ∃ reason, ReconnectService.handleReconnect (s.received sid now) sid req =
      .ok (ReconnectService.sendReconnectFailed { s.received sid now with
        metrics := (s.received sid now).metrics.incrReconnectReq } sid reason) := by
    simp only [ReconnectService.handleReconnect]
    cases hst : (s.received sid now).playerStateManager.getState (toInt req.playerId) with
    | none => exact ⟨_, rfl⟩
    | some st =>
      dsimp only
      split_ifs with htok hoff
      · exact ⟨_, rfl⟩
      · exact ⟨_, rfl⟩
      · exact absurd ⟨hst, not_not.1 htok, not_not.1 hoff⟩ (hno st)
  obtain ⟨reason, hreply⟩ := hreply
  exact ⟨_, ⟨⟨halive, trivial⟩, hreply⟩, rfl, reason, rfl⟩

/-- The handler returns when the player can be marked in its room. -/
theorem step_reconnect {s : Server} {sid : SessionId} {req : ReconnectReq} (now : Instant)
    (halive : s.alive sid) {rm : RoomManager}
    (hrm : s.roomManager.mark (toInt req.playerId) .online = .ok rm) :
    ∃ s', server.step s (.request sid (.reconnect req) now) s' := by
  by_cases hst : ∃ st, s.core.Resumable (toInt req.playerId) req.token st
  · obtain ⟨st, hst, htok, hoff⟩ := hst
    have hreply : ∃ s', ReconnectService.handleReconnect (s.received sid now) sid req = .ok s' := by
      have hget : (s.received sid now).playerStateManager.getState (toInt req.playerId) = some st :=
        hst
      have hmark : (s.received sid now).roomManager.mark (toInt req.playerId) .online = .ok rm := hrm
      simp only [ReconnectService.handleReconnect, hget, htok, hoff, ne_eq, not_true_eq_false,
        if_false, ReconnectService.resume, RoomManager.markPlayerReconnected_eq, hmark]
      exact ⟨_, rfl⟩
    obtain ⟨s', hs'⟩ := hreply
    exact ⟨s', ⟨halive, trivial⟩, hs'⟩
  · obtain ⟨s', hs', -⟩ := step_refused now halive (not_exists.1 hst)
    exact ⟨s', hs'⟩

/-! ### Replaying events -/

/-- The event can come next, decided by computation; a ranking is never replayed. -/
def enables (s : Server) : Event → Bool
  | .accept sid _ => sid ∉ s.sessions
  | .request _ (.ranking _ _) _ => false
  | .request sid _ _ => s.alive sid
  | .close sid _ => s.alive sid
  | .release sid => s.alive sid ∧ (s.session sid).closed ∧ sid ∉ s.connectionManager.sessions
  | .sweep order _ => s.playerStateManager.states.Enumerates order

theorem enabled_of_enables {s : Server} {e : Event} (h : s.enables e = true) : s.Enabled e := by
  cases e with
  | request sid req now => cases req <;> simp_all [enables, Enabled]
  | _ => simpa [enables, Enabled] using h

/-- Handle the events one after the other, as long as they are enabled and handled. -/
def replay : History → Server → List Event → Option (History × Server)
  | tr, s, [] => some (tr, s)
  | tr, s, e :: es =>
    if s.enables e then
      match s.step e with
      | .ok s' => replay ((s, e) :: tr) s' es
      | .error _ => none
    else none

theorem run_of_replay {tr tr' : History} {s s' : Server} {es : List Event} (h : server.Run tr s)
    (hes : replay tr s es = some (tr', s')) : server.Run tr' s' := by
  induction es generalizing tr s with
  | nil =>
    obtain ⟨rfl, rfl⟩ := Prod.mk.inj (Option.some.inj hes)
    exact h
  | cons e es ih =>
    unfold replay at hes
    split_ifs at hes with hen
    split at hes
    · rename_i s₁ hs
      exact ih (h.cons ⟨enabled_of_enables hen, hs⟩) hes
    · cases hes

/-- A replay that ends as `Q` says is a run that does. -/
theorem exists_run {Q : History → Server → Prop} [∀ tr s, Decidable (Q tr s)] (es : List Event)
    (h : (replay [] {} es).any (fun x => decide (Q x.1 x.2)) = true) :
    ∃ tr s, server.Run tr s ∧ Q tr s := by
  obtain ⟨⟨tr, s⟩, hes, hQ⟩ := (Option.any_eq_true _ _).1 h
  exact ⟨tr, s, run_of_replay .nil hes, of_decide_eq_true hQ⟩

/-- The same with one more event, for statements about a step. -/
theorem exists_step {Q : History → Server → Server → Prop} [∀ tr s s', Decidable (Q tr s s')]
    (es : List Event) (e : Event)
    (h : (replay [] {} es).any (fun x => x.2.enables e &&
      (x.2.step e).toOption.any fun s' => decide (Q x.1 x.2 s')) = true) :
    ∃ tr s s', server.Run tr s ∧ server.step s e s' ∧ Q tr s s' := by
  obtain ⟨⟨tr, s⟩, hes, hx⟩ := (Option.any_eq_true _ _).1 h
  obtain ⟨hen, hs⟩ := Bool.and_eq_true_iff.1 hx
  obtain ⟨s', hs', hQ⟩ := (Option.any_eq_true _ _).1 hs
  have hok : s.step e = .ok s' := by
    cases hstep : s.step e with
    | error c =>
      simp only [hstep] at hs'
      cases hs'
    | ok s₁ =>
      simp only [hstep] at hs'
      rw [Option.some.inj hs']
  exact ⟨tr, s, s', run_of_replay .nil hes, ⟨enabled_of_enables hen, hok⟩, of_decide_eq_true hQ⟩

/-- Players 10000 and 10001 log in on sessions 0 and 1 and are matched: the shortest way
to a room. -/
def pairUp : List Event :=
  [.accept 0 {}, .accept 1 {}, .request 0 (.login { username := [0x61] }) {},
    .request 1 (.login { username := [0x62] }) {}, .request 0 (.match { playerId := 10000 }) {},
    .request 1 (.match { playerId := 10001 }) {}]

end Server
end GameServer
