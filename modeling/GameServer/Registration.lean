/-
# Which sessions are open and which are registered

A session is open from its accept to its close (`closedFlag_step`).  `ConnectionManager`
learns of a session when a login or a reconnect is accepted on it, and forgets it when it
is closed; an accept alone does not add it.  So among the open sessions, the ones it holds
are those a login or a reconnect was accepted on (`mem_connected_iff`), and it holds no
others as long as these come on open sessions (`connected_open`).
-/

import GameServer.Runs

namespace GameServer

/-! ### From events to acts -/

/-- The event is a LoginReq or a ReconnectReq on the session. -/
def Event.introduces (sid : SessionId) : Event → Bool
  | .request sid' (.login _) _ | .request sid' (.reconnect _) _ => sid' = sid
  | _ => false

/-- A session is introduced by a request of its client. -/
theorem Event.request_of_introduces {sid : SessionId} {e : Event} (h : e.introduces sid = true) :
    ∃ req now, e = .request sid req now := by
  cases e with
  | request sid' req now =>
    cases req with
    | login req | reconnect req =>
      obtain rfl : sid' = sid := of_decide_eq_true h
      exact ⟨_, now, rfl⟩
    | «match» | chat | heartbeat | ranking | unregistered => cases h
  | accept | close | release | sweep => cases h

/-- The act gives the session a player. -/
def Act.introduces (sid : SessionId) : Act → Prop
  | .login sid' | .resume sid' _ _ => sid' = sid
  | _ => False

instance (a : Act) (sid : SessionId) : Decidable (a.introduces sid) :=
  match a with
  | .login sid' | .resume sid' _ _ => inferInstanceAs (Decidable (sid' = sid))
  | .idle | .accept _ | .wait _ | .room _ _ | .close _ _ | .release _ | .sweep _ _ =>
    inferInstanceAs (Decidable False)

/-- A login or a reconnect was accepted on the session. -/
def History.Introduced (tr : History) (sid : SessionId) : Prop :=
  ∃ x ∈ tr, (x.1.act x.2).introduces sid

instance (tr : History) (sid : SessionId) : Decidable (History.Introduced tr sid) :=
  inferInstanceAs (Decidable (∃ x ∈ tr, _))

/-- The request that an act comes from. -/
theorem Server.act_inv (s : Server) (e : Event) : match s.act e with
    | .login sid => ∃ req now, e = .request sid (.login req) now
    | .resume sid p token => ∃ req now, e = .request sid (.reconnect req) now ∧
        toInt req.playerId = p ∧ req.token = token
    | .wait p | .room p _ => ∃ sid req now, e = .request sid (.match req) now ∧
        toInt req.playerId = p
    | _ => True := by
  rcases e with _ | ⟨sid, req, now⟩ | ⟨sid, now⟩ | _ | _
  · trivial
  · cases req with
    | login req =>
      simp only [act]
      split_ifs
      · trivial
      · exact ⟨req, now, rfl⟩
    | «match» req =>
      simp only [act]
      split_ifs
      · trivial
      · trivial
      · exact ⟨sid, req, now, rfl, rfl⟩
      · exact ⟨sid, req, now, rfl, rfl⟩
    | reconnect req =>
      rcases s.act_reconnect sid req now with ⟨-, hact⟩ | ⟨-, hact⟩
      · rw [hact]
        trivial
      · rw [hact]
        exact ⟨req, now, rfl, rfl, rfl⟩
    | _ => trivial
  · simp only [act]
    split_ifs <;> trivial
  · trivial
  · trivial

theorem Server.introduces_of_act {s : Server} {e : Event} {sid : SessionId}
    (h : (s.act e).introduces sid) : e.introduces sid := by
  have hinv := s.act_inv e
  cases hact : s.act e with
  | login sid' =>
    rw [hact] at h hinv
    obtain ⟨req, now, rfl⟩ := hinv
    exact decide_eq_true h
  | resume sid' p token =>
    rw [hact] at h hinv
    obtain ⟨req, now, rfl, -⟩ := hinv
    exact decide_eq_true h
  | _ => exact (hact ▸ h).elim

theorem Server.isOpen_of_alive {s : Server} {sid : SessionId} (halive : s.alive sid)
    (hopen : (s.session sid).closed = false) : s.core.Open sid := by
  obtain ⟨ses, hses, -⟩ := (s.alive_iff sid).1 halive
  rw [session, show s.sessions.lookup sid = some ses from hses, Option.getD_some] at hopen
  exact ⟨ses, hses, hopen⟩

/-! ### Which sessions are closed -/

/-- `closed_` of the session, if there is such a session. -/
def Core.closedFlag (c : Core) (sid : SessionId) : Option Bool :=
  (c.sessions.lookup sid).map Session.closed

/-- What an act sets `closed_` of the session to, if it does. -/
def Act.setsClosed (sid : SessionId) : Act → Option Bool
  | .accept sid' => if sid = sid' then some false else none
  | .close sid' _ => if sid = sid' then some true else none
  | _ => none

/-- What an event sets `closed_` of the session to, if it does. -/
def Event.setsClosed (sid : SessionId) : Event → Option Bool
  | .accept sid' _ => if sid = sid' then some false else none
  | .close sid' _ => if sid = sid' then some true else none
  | _ => none

theorem Core.isOpen_iff {c : Core} {sid : SessionId} : c.Open sid ↔ c.closedFlag sid = some false := by
  simp only [Open, closedFlag, Option.map_eq_some_iff]

/-- Updates of a session that leave `closed_` alone. -/
theorem closed_modify (sessions : Table SessionId Session) (sid₀ : SessionId) {f : Session → Session}
    (hf : ∀ ses, (f ses).closed = ses.closed) (sid : SessionId) :
    ((sessions.modify sid₀ f).lookup sid).map Session.closed =
      (sessions.lookup sid).map Session.closed := by
  rw [Table.lookup_modify]
  split_ifs with hs
  · subst hs
    cases sessions.lookup sid with
    | none => rfl
    | some ses => exact congrArg some (hf ses)
  · rfl

/-- **`closed_` is set by an accept and a close alone.** -/
theorem CoreStep.closedFlag_eq {c c' : Core} {a : Act} (h : CoreStep c a c') (sid : SessionId) :
    c'.closedFlag sid = (a.setsClosed sid).or (c.closedFlag sid) := by
  cases h with
  | accept _ =>
    simp only [Core.closedFlag, Table.lookup_insert', Act.setsClosed]
    split_ifs <;> rfl
  | login _ | resume _ _ _ | release _ _ _ =>
    refine closed_modify c.sessions _ (fun ses => ?_) sid
    rfl
  | close hses _ _ _ =>
    simp only [Core.closedFlag, Table.lookup_modify, Act.setsClosed]
    split_ifs with hs
    · rw [hses]
      rfl
    · rfl
  | sweep _ _ hfold =>
    rw [Core.sweep_frame hfold]
    rfl
  | idle | wait _ _ _ | room _ _ _ _ => rfl

namespace Server

/-- No message sets `closed_`. -/
theorem setsClosed_request (s : Server) (sid : SessionId) (req : Request) (now : Instant)
    (sid' : SessionId) : (s.act (.request sid req now)).setsClosed sid' = none := by
  cases req with
  | login req =>
    simp only [act]
    split_ifs <;> rfl
  | «match» req =>
    simp only [act]
    split_ifs <;> rfl
  | reconnect req =>
    rcases act_reconnect s sid req now with ⟨-, hact⟩ | ⟨-, hact⟩ <;> rw [hact] <;> rfl
  | _ => rfl

/-- **What an event does to `closed_`**: a session is open when it is accepted and closed after
a close, whether it was open or not. -/
theorem closedFlag_step {s s' : Server} {e : Event} (h : server.step s e s') (sid : SessionId) :
    s'.core.closedFlag sid = (e.setsClosed sid).or (s.core.closedFlag sid) := by
  have hcore := (step_core h).closedFlag_eq sid
  cases e with
  | accept sid₀ now => exact hcore
  | request sid₀ req now => rwa [setsClosed_request] at hcore
  | close sid₀ now =>
    have halive : s.core.Alive sid₀ := (s.alive_iff sid₀).1 h.1
    obtain ⟨ses, hses, -⟩ := halive
    have hof : s.session sid₀ = ses := by
      rw [session, show s.sessions.lookup sid₀ = some ses from hses, Option.getD_some]
    simp only [act, hof] at hcore
    split_ifs at hcore with hclosed
    · rw [hcore]
      simp only [Event.setsClosed, Act.setsClosed, Option.none_or]
      split_ifs with hs
      · subst hs
        rw [Core.closedFlag, hses, Option.map_some, hclosed]
        rfl
      · rfl
    · exact hcore
  | release sid₀ => exact hcore
  | sweep order now => exact hcore

end Server

/-! ### What `ConnectionManager` holds -/

/-- **The connections after a step of the core**: a session is added by a login or a reconnect, and
erased by its close. -/
theorem CoreStep.mem_connected {c c' : Core} {a : Act} (h : CoreStep c a c') (sid : SessionId) :
    sid ∈ c'.connectionManager.sessions ↔
      a.introduces sid ∨ sid ∈ c.connectionManager.sessions ∧ a.setsClosed sid ≠ some true := by
  cases h with
  | login _ | resume _ _ _ =>
    simp [ConnectionManager.addSession, Finset.mem_insert, Act.introduces, Act.setsClosed, eq_comm]
  | close _ _ _ _ =>
    simp only [ConnectionManager.removeSession, Finset.mem_erase, Act.introduces, Act.setsClosed]
    split_ifs with hs <;> simp [hs]
  | accept _ =>
    simp only [Act.introduces, Act.setsClosed]
    split_ifs <;> simp
  | sweep _ _ hfold =>
    rw [Core.sweep_frame hfold]
    simp [Act.introduces, Act.setsClosed]
  | idle | wait _ _ _ | room _ _ _ _ | release _ _ _ => simp [Act.introduces, Act.setsClosed]

/-- A session that is given a player exists. -/
theorem CoreStep.isSome_of_introduces {c c' : Core} {a : Act} (h : CoreStep c a c')
    {sid : SessionId} (ha : a.introduces sid) : (c.closedFlag sid).isSome := by
  have hexists : ∀ {sid'}, sid' = sid → c.Alive sid' → (c.closedFlag sid).isSome := by
    rintro _ rfl ⟨ses, hses, -⟩
    rw [Core.closedFlag, hses]
    rfl
  cases h with
  | login hsid | resume hsid _ _ => exact hexists ha hsid
  | idle | accept _ | wait _ _ _ | room _ _ _ _ | close _ _ _ _ | release _ _ _ | sweep _ _ _ =>
    exact ha.elim

/-- A session that was accepted stays known, open or closed. -/
theorem CoreStep.isSome_closedFlag {c c' : Core} {a : Act} (h : CoreStep c a c') {sid : SessionId}
    (hsid : (c.closedFlag sid).isSome) : (c'.closedFlag sid).isSome := by
  rw [h.closedFlag_eq]
  cases a.setsClosed sid with
  | none => exact hsid
  | some b => rfl

/-- The session that an accept opens was not there. -/
theorem CoreStep.closedFlag_eq_none {c c' : Core} {a : Act} (h : CoreStep c a c') {sid : SessionId}
    (ha : a.setsClosed sid = some false) : c.closedFlag sid = none := by
  cases h with
  | accept hsid =>
    simp only [Act.setsClosed] at ha
    split_ifs at ha with hs
    rw [Core.closedFlag, hs, (Table.not_mem_iff _ _).1 hsid]
    rfl
  | close _ _ _ _ =>
    simp only [Act.setsClosed] at ha
    split_ifs at ha
    cases ha
  | idle | login _ | wait _ _ _ | room _ _ _ _ | resume _ _ _ | release _ _ _ | sweep _ _ _ =>
    cases ha

/-- A session that was there before a step and is open after it was open before, and is not the one
the step closed. -/
theorem CoreStep.isOpen_before {c c' : Core} {a : Act} (h : CoreStep c a c') {sid : SessionId}
    (hsid : (c.closedFlag sid).isSome) (hopen : c'.Open sid) :
    c.Open sid ∧ a.setsClosed sid = none := by
  have hflag := h.closedFlag_eq sid
  rw [Core.isOpen_iff.1 hopen] at hflag
  cases hact : a.setsClosed sid with
  | none =>
    rw [hact, Option.none_or] at hflag
    exact ⟨Core.isOpen_iff.2 hflag.symm, rfl⟩
  | some b =>
    rw [hact, Option.some_or] at hflag
    obtain rfl : b = false := (Option.some.inj hflag).symm
    rw [h.closedFlag_eq_none hact] at hsid
    cases hsid

/-- The object of an open session exists. -/
theorem alive_of_open {tr : History} {s : Server} (h : server.Run tr s) {sid : SessionId}
    (hopen : s.core.Open sid) : s.core.Alive sid := by
  refine core_invariant (P := fun c => ∀ sid, c.Open sid → c.Alive sid) (C := fun _ _ => True)
    (fun sid ⟨ses, hses, _⟩ => by simp at hses) (fun {c a c'} hP _ hs sid hopen => ?_) h
    (fun _ _ => trivial) sid hopen
  by_cases ha : a = .release sid
  · subst ha
    cases hs with
    | release hses hclosed _ =>
      obtain ⟨ses', hses', hopen'⟩ := hopen
      rw [Table.lookup_modify, if_pos rfl, hses] at hses'
      rw [← Option.some.inj hses', hclosed] at hopen'
      cases hopen'
  · by_cases hsome : (c.closedFlag sid).isSome
    · exact hs.alive ha (hP sid (hs.isOpen_before hsome hopen).1)
    · -- The session was just accepted.
      rw [Core.isOpen_iff, hs.closedFlag_eq, Option.not_isSome_iff_eq_none.1 hsome,
        Option.or_none] at hopen
      cases hs with
      | accept _ =>
        simp only [Act.setsClosed] at hopen
        split_ifs at hopen with hsid
        exact (Core.alive_insert rfl sid).2 (.inl hsid)
      | close _ _ _ _ =>
        simp only [Act.setsClosed] at hopen
        split_ifs at hopen
        cases hopen
      | _ => cases hopen

/-- The sessions a login or a reconnect was accepted on exist. -/
theorem isSome_of_introduced {tr : History} {s : Server} (h : server.Run tr s) {sid : SessionId}
    (hsid : ∃ x ∈ tr, (x.1.act x.2).introduces sid) : (s.core.closedFlag sid).isSome := by
  induction h with
  | nil =>
    obtain ⟨x, hx, -⟩ := hsid
    exact absurd hx List.not_mem_nil
  | @cons tr s s' e hrun hs ih =>
    obtain ⟨x, hx, hintro⟩ := hsid
    have hcore := Server.step_core hs
    rcases List.mem_cons.1 hx with rfl | hx
    · exact hcore.isSome_closedFlag (hcore.isSome_of_introduces hintro)
    · exact hcore.isSome_closedFlag (ih ⟨x, hx, hintro⟩)

/-- **Among the open sessions, `ConnectionManager` holds those that a login or a reconnect was
accepted on.** -/
theorem mem_connected_iff {tr : History} {s : Server} (h : server.Run tr s) {sid : SessionId}
    (hopen : s.core.Open sid) : sid ∈ s.connectionManager.sessions ↔
      ∃ x ∈ tr, (x.1.act x.2).introduces sid := by
  induction h with
  | nil =>
    obtain ⟨ses, hses, -⟩ := hopen
    cases hses
  | @cons tr s s' e hrun hs ih =>
    have hcore := Server.step_core hs
    have hmem : sid ∈ s'.connectionManager.sessions ↔ _ := hcore.mem_connected sid
    rw [hmem]
    constructor
    · rintro (hintro | ⟨hconn, -⟩)
      · exact ⟨(s, e), List.mem_cons_self .., hintro⟩
      · obtain ⟨ses, hses, -⟩ := alive_of_connected hrun sid hconn
        have hsome : (s.core.closedFlag sid).isSome := by
          rw [Core.closedFlag, hses]
          rfl
        obtain ⟨x, hx, hintro⟩ := (ih (hcore.isOpen_before hsome hopen).1).1 hconn
        exact ⟨x, List.mem_cons_of_mem _ hx, hintro⟩
    · rintro ⟨x, hx, hintro⟩
      rcases List.mem_cons.1 hx with rfl | hx
      · exact .inl hintro
      · right
        obtain ⟨hbefore, hset⟩ :=
          hcore.isOpen_before (isSome_of_introduced hrun ⟨x, hx, hintro⟩) hopen
        exact ⟨(ih hbefore).2 ⟨x, hx, hintro⟩, by rw [hset]; exact fun e => by cases e⟩

/-- A session that has a player is registered. -/
theorem registered_of_bound {tr : History} {s : Server} (h : server.Run tr s) {sid : SessionId}
    {p : PlayerId} (hp : p ≠ 0) (hbound : s.core.Bound sid p) :
    sid ∈ s.connectionManager.sessions := by
  refine core_invariant (P := fun c => ∀ sid p, p ≠ 0 → c.Bound sid p →
      sid ∈ c.connectionManager.sessions) (C := fun _ _ => True)
    (fun sid p _ hb => by obtain ⟨ses, hses, -⟩ := hb; cases hses)
    (fun {c a c'} hP _ hs sid p hp hb => ?_) h (fun _ _ => trivial) sid p hp hbound
  rw [hs.mem_connected]
  cases hs with
  | accept _ =>
    rw [Core.bound_insert rfl] at hb
    split_ifs at hb with hsid
    · exact absurd hb hp
    · exact .inr ⟨hP sid p hp hb, by simp [Act.setsClosed, hsid]⟩
  | login _ | resume _ _ _ =>
    rw [Core.bound_rebind rfl] at hb
    split_ifs at hb with hsid
    · exact .inl hsid.symm
    · exact .inr ⟨hP sid p hp hb, fun he => by cases he⟩
  | close _ _ _ _ =>
    obtain ⟨hsid, hb⟩ := (Core.bound_close rfl sid p).1 hb
    exact .inr ⟨hP sid p hp hb, by simp [Act.setsClosed, hsid]⟩
  | release _ _ _ =>
    exact .inr ⟨hP sid p hp ((Core.bound_release rfl sid p).1 hb), fun he => by cases he⟩
  | sweep _ _ hfold =>
    rw [Core.sweep_frame hfold] at hb
    exact .inr ⟨hP sid p hp hb, fun he => by cases he⟩
  | idle | wait _ _ _ | room _ _ _ _ => exact .inr ⟨hP sid p hp hb, fun he => by cases he⟩

/-- **As long as logins and reconnects come on open sessions, `ConnectionManager` holds open
sessions only.** -/
theorem connected_open {tr : History} {s : Server} (h : server.Run tr s)
    (hintro : ∀ x ∈ tr, ∀ sid, (x.1.act x.2).introduces sid → x.1.core.Open sid) :
    ∀ sid ∈ s.connectionManager.sessions, s.core.Open sid := by
  refine core_invariant (P := fun c => ∀ sid ∈ c.connectionManager.sessions, c.Open sid)
    (C := fun c a => ∀ sid, a.introduces sid → c.Open sid)
    (fun sid hsid => absurd hsid (Finset.notMem_empty _)) (fun {c a c'} hP hC hs sid hsid => ?_) h
    hintro
  rw [hs.mem_connected] at hsid
  rw [Core.isOpen_iff, hs.closedFlag_eq]
  rcases hsid with ha | ⟨hconn, hset⟩
  · have hnone : a.setsClosed sid = none := by
      cases a <;> first | rfl | exact ha.elim
    rw [hnone, Option.none_or]
    exact Core.isOpen_iff.1 (hC sid ha)
  · cases hact : a.setsClosed sid with
    | none => exact Core.isOpen_iff.1 (hP sid hconn)
    | some b =>
      cases b with
      | false => rfl
      | true => exact absurd hact hset

end GameServer
