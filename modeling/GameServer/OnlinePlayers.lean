/-
# The players that are listed as online

`PlayerManager::players_` should list the players of the open sessions that have logged in
or reconnected (`Server.ListsConnected`); `online_count()` is its size.  A login and a
reconnect add an entry for the id they give to the session and leave the entry of the id it
had before, and the close callback erases the entry of the id the session has then, whoever
it is mapped to.  `Core.KeepsList` is what keeps the list, and it is exact
(`lists_connected_iff`).
-/

import GameServer.Registration

namespace GameServer

/-! ### The list and what keeps it -/

/-- The open sessions that have logged in or reconnected. -/
def Server.connectedSessions (s : Server) (tr : History) : Finset SessionId :=
  s.sessions.keys.filter fun sid => s.core.Open sid ∧ tr.Introduced sid

/-- `players_` lists exactly the connected players. -/
structure Server.ListsConnected (s : Server) (tr : History) : Prop where
  entry : ∀ {p sid}, s.playerManager.players.lookup p = some sid →
    s.core.Alive sid ∧ s.core.Bound sid p
  count : s.playerManager.onlineCount = (s.connectedSessions tr).card
  none_left : (∀ sid, ¬ s.core.Open sid) → s.playerManager.onlineCount = 0

/-- The session is open, and `players_` maps nobody but `p` to it and `p` to nobody but it. -/
def Core.Gives (c : Core) (sid : SessionId) (p : PlayerId) : Prop :=
  c.Open sid ∧ ∀ q ∈ c.playerManager.players.keys,
    c.playerManager.players.lookup q = some sid ↔ q = p

/-- The act keeps the list: a session is given a player that is not listed elsewhere, and is
not listed with another one; and the entry that a close erases is not that of another
session. -/
def Core.KeepsList (c : Core) : Act → Prop
  | .login sid => c.Gives sid c.nextPlayerId
  | .resume sid p _ => c.Gives sid p
  | .close sid _ => ∀ ses ∈ c.sessions.lookup sid,
    ∀ sid' ∈ c.playerManager.players.lookup ses.playerId, sid' = sid
  | _ => True

instance (c : Core) (sid : SessionId) (p : PlayerId) : Decidable (c.Gives sid p) :=
  inferInstanceAs (Decidable (_ ∧ _))

instance (c : Core) (a : Act) : Decidable (c.KeepsList a) :=
  match a with
  | .login _ | .resume _ _ _ => inferInstanceAs (Decidable (c.Gives _ _))
  | .close sid _ => inferInstanceAs (Decidable (∀ ses ∈ c.sessions.lookup sid,
    ∀ sid' ∈ c.playerManager.players.lookup ses.playerId, sid' = sid))
  | .idle | .accept _ | .wait _ | .room _ _ | .release _ | .sweep _ _ =>
    inferInstanceAs (Decidable True)

/-! ### What a step does to the list -/

/-- What the list comes to in the core: the entries are right, and each registered session
that is open has one. -/
structure Core.Listed (c : Core) : Prop where
  bound : ∀ {p sid}, c.playerManager.players.lookup p = some sid → c.Bound sid p
  listed : ∀ {sid}, sid ∈ c.connectionManager.sessions → c.Open sid →
    ∃ p, c.playerManager.players.lookup p = some sid

/-- A step that neither opens nor closes a session. -/
theorem CoreStep.isOpen_congr {c c' : Core} {a : Act} (h : CoreStep c a c') {sid : SessionId}
    (ha : a.setsClosed sid = none) : c'.Open sid ↔ c.Open sid := by
  rw [Core.isOpen_iff, Core.isOpen_iff, h.closedFlag_eq, ha, Option.none_or]

namespace Core.Listed

variable {c c' : Core}

theorem init : Core.Listed {} where
  bound h := by cases h
  listed h := absurd h (Finset.notMem_empty _)

theorem congr (h : c.Listed) (hplayers : c'.playerManager = c.playerManager)
    (hconn : c'.connectionManager = c.connectionManager)
    (hopen : ∀ sid, c'.Open sid → c.Open sid)
    (hbound : ∀ sid p, c.Bound sid p → c'.Bound sid p) : c'.Listed where
  bound hlk := hbound _ _ (h.bound (hplayers ▸ hlk))
  listed hmem ho := by
    rw [hplayers]
    exact h.listed (hconn ▸ hmem) (hopen _ ho)

/-- A session that was just accepted is not registered. -/
theorem accept (h : c.Listed) (hconn : ∀ sid ∈ c.connectionManager.sessions, c.Alive sid)
    {sid : SessionId} (hsid : sid ∉ c.sessions) :
    Core.Listed { c with sessions := c.sessions.insert sid {} } := by
  have hnew : ∀ {sid' ses}, c.sessions.lookup sid' = some ses → sid' ≠ sid := by
    rintro sid' ses hses rfl
    exact hsid (Finmap.mem_of_lookup_eq_some hses)
  constructor
  case bound =>
    intro p sid' hlk
    have hb := h.bound hlk
    rw [Core.bound_insert rfl, if_neg (hnew hb.choose_spec.1)]
    exact hb
  case listed =>
    intro sid' hmem hopen
    obtain ⟨ses, hses, hflag⟩ := hopen
    obtain ⟨ses', hses', -⟩ := hconn sid' hmem
    rw [Table.lookup_insert', if_neg (hnew hses')] at hses
    exact h.listed hmem ⟨ses, hses, hflag⟩

/-- **A session is given a player.** -/
theorem rebind_iff (h : c.Listed)
    (hreg : ∀ {p sid}, c.playerManager.players.lookup p = some sid →
      sid ∈ c.connectionManager.sessions)
    {sid : SessionId} {p : PlayerId} {token : Bytes}
    (hsessions : c'.sessions = c.sessions.modify sid fun ses =>
      { ses with playerId := p, token := token })
    (hplayers : c'.playerManager = c.playerManager.addPlayer p sid)
    (hconn : c'.connectionManager = c.connectionManager.addSession sid)
    (hopen : ∀ sid', c'.Open sid' ↔ c.Open sid') : c'.Listed ↔ c.Gives sid p := by
  have hlk : ∀ q, c'.playerManager.players.lookup q =
      if q = p then some sid else c.playerManager.players.lookup q := fun q => by
    rw [hplayers, PlayerManager.addPlayer, Table.lookup_insert']
  have hbound := Core.bound_rebind hsessions
  constructor
  · intro h'
    have hb := h'.bound ((hlk p).trans (if_pos rfl))
    rw [hbound, if_pos rfl] at hb
    refine ⟨hb.1, fun q hq => ?_⟩
    obtain ⟨sid', hsid'⟩ := Finmap.mem_iff.1 (Finmap.mem_keys.1 hq)
    constructor
    · intro hqs
      by_contra hne
      have hb' := h'.bound ((hlk q).trans ((if_neg hne).trans hqs))
      rw [hbound, if_pos rfl] at hb'
      exact hne hb'.2
    · rintro rfl
      -- If the player were listed elsewhere, that session would have no entry left.
      by_contra hne
      have hsid : sid' ≠ sid := fun e => hne (e ▸ hsid')
      have hb' := h.bound hsid'
      have hmem : sid' ∈ c'.connectionManager.sessions := by
        rw [hconn]
        exact Finset.mem_insert_of_mem (hreg hsid')
      obtain ⟨r, hr⟩ := h'.listed hmem ((hopen sid').2 hb'.isOpen)
      rw [hlk] at hr
      split_ifs at hr with hrq
      · exact hsid (Option.some.inj hr).symm
      · exact hrq ((h.bound hr).unique hb')
  · rintro ⟨ho, hq⟩
    have hother : ∀ {q sid'}, c.playerManager.players.lookup q = some sid' →
        (sid' = sid ↔ q = p) := fun {q sid'} hqs => by
      rw [← hq q (Finmap.mem_keys.2 (Finmap.mem_of_lookup_eq_some hqs)), hqs, Option.some.injEq]
    constructor
    case bound =>
      intro q sid' hqs
      rw [hlk] at hqs
      rw [hbound]
      split_ifs at hqs with hqp
      · rw [if_pos (Option.some.inj hqs).symm]
        exact ⟨(Option.some.inj hqs) ▸ ho, hqp⟩
      · rw [if_neg (mt (hother hqs).1 hqp)]
        exact h.bound hqs
    case listed =>
      intro sid' hmem ho'
      rw [hconn] at hmem
      by_cases hsid : sid' = sid
      · exact ⟨p, by rw [hlk, if_pos rfl, hsid]⟩
      · obtain ⟨q, hqs⟩ := h.listed (Finset.mem_of_mem_insert_of_ne hmem hsid) ((hopen sid').1 ho')
        exact ⟨q, by rw [hlk, if_neg (mt (hother hqs).2 hsid), hqs]⟩

/-- **A session is closed.** -/
theorem close_iff (h : c.Listed)
    (hreg : ∀ {p sid}, c.playerManager.players.lookup p = some sid →
      sid ∈ c.connectionManager.sessions)
    {sid : SessionId} {ses : Session} (hses : c.sessions.lookup sid = some ses)
    (hopen : ses.closed = false)
    (hsessions : c'.sessions = c.sessions.modify sid fun ses => { ses with closed := true })
    (hplayers : c'.playerManager = c.playerManager.removePlayer ses.playerId)
    (hconn : c'.connectionManager = c.connectionManager.removeSession sid) :
    c'.Listed ↔ ∀ sid' ∈ c.playerManager.players.lookup ses.playerId, sid' = sid := by
  have hlk : ∀ q, c'.playerManager.players.lookup q =
      if q = ses.playerId then none else c.playerManager.players.lookup q := fun q => by
    rw [hplayers, PlayerManager.removePlayer, Table.lookup_erase']
  have hb : c.Bound sid ses.playerId := ⟨ses, hses, hopen, rfl⟩
  have hopen' : ∀ sid', c'.Open sid' ↔ sid' ≠ sid ∧ c.Open sid' := fun sid' => by
    simp only [Core.open_iff_bound, Core.bound_close hsessions, exists_and_left]
  constructor
  · intro h' sid' hsid'
    by_contra hne
    have hb' := h.bound hsid'
    have hmem : sid' ∈ c'.connectionManager.sessions := by
      rw [hconn]
      exact Finset.mem_erase.2 ⟨hne, hreg hsid'⟩
    obtain ⟨q, hq⟩ := h'.listed hmem ((hopen' sid').2 ⟨hne, hb'.isOpen⟩)
    rw [hlk] at hq
    split_ifs at hq with hqp
    exact hqp ((h.bound hq).unique hb')
  · intro hC
    constructor
    case bound =>
      intro q sid' hq
      rw [hlk] at hq
      split_ifs at hq with hqp
      rw [Core.bound_close hsessions]
      refine ⟨?_, h.bound hq⟩
      rintro rfl
      exact hqp ((h.bound hq).unique hb)
    case listed =>
      intro sid' hmem ho'
      rw [hconn] at hmem
      obtain ⟨hne, ho⟩ := (hopen' sid').1 ho'
      obtain ⟨q, hq⟩ := h.listed (Finset.mem_of_mem_erase hmem) ho
      refine ⟨q, ?_⟩
      rw [hlk, if_neg, hq]
      rintro rfl
      exact hne (hC sid' hq)

/-- **A step keeps the list exactly when its act does.** -/
theorem step_iff {a : Act} (h : c.Listed)
    (hconn : ∀ sid ∈ c.connectionManager.sessions, c.Alive sid)
    (hreg : ∀ {p sid}, c.playerManager.players.lookup p = some sid →
      sid ∈ c.connectionManager.sessions)
    (hs : CoreStep c a c') : c'.Listed ↔ c.KeepsList a := by
  have hopen : ∀ sid, a.setsClosed sid = none → (c'.Open sid ↔ c.Open sid) :=
    fun sid => hs.isOpen_congr
  cases hs with
  | idle => exact iff_of_true h trivial
  | accept hsid => exact iff_of_true (h.accept hconn hsid) trivial
  | login _ => exact h.rebind_iff hreg rfl rfl rfl fun sid' => hopen sid' rfl
  | wait _ _ _ | room _ _ _ _ => exact iff_of_true (h.congr rfl rfl (fun _ => id) fun _ _ => id) trivial
  | resume _ _ _ => exact h.rebind_iff hreg rfl rfl rfl fun sid' => hopen sid' rfl
  | close hses ho _ _ =>
    refine Iff.trans (h.close_iff hreg hses ho rfl rfl rfl) ?_
    simp only [Core.KeepsList, hses, Option.mem_some_iff, forall_eq']
  | release _ _ _ =>
    exact iff_of_true (h.congr rfl rfl (fun sid ho => (hopen sid rfl).1 ho)
      fun sid p hb => (Core.bound_release rfl sid p).2 hb) trivial
  | sweep _ _ hfold =>
    refine iff_of_true ?_ trivial
    rw [Core.sweep_frame hfold]
    exact h.congr rfl rfl (fun _ => id) fun _ _ => id

end Core.Listed

/-! ### Runs -/

/-- An entry is there already or is made for the session of the act. -/
theorem CoreStep.introduces_of_listed {c c' : Core} {a : Act} (h : CoreStep c a c') {p : PlayerId}
    {sid : SessionId} (hlk : c'.playerManager.players.lookup p = some sid) :
    a.introduces sid ∨ c.playerManager.players.lookup p = some sid := by
  cases h with
  | login _ | resume _ _ _ =>
    rw [PlayerManager.addPlayer, Table.lookup_insert'] at hlk
    split_ifs at hlk
    · exact .inl (Option.some.inj hlk)
    · exact .inr hlk
  | close _ _ _ _ =>
    rw [PlayerManager.removePlayer, Table.lookup_erase'] at hlk
    split_ifs at hlk
    exact .inr hlk
  | sweep _ _ hfold =>
    rw [Core.sweep_frame hfold] at hlk
    exact .inr hlk
  | idle | accept _ | wait _ _ _ | room _ _ _ _ | release _ _ _ => exact .inr hlk

/-- The session of an entry has logged in or reconnected. -/
theorem introduced_of_listed {tr : History} {s : Server} (h : server.Run tr s) {p : PlayerId}
    {sid : SessionId} (hlk : s.playerManager.players.lookup p = some sid) : tr.Introduced sid := by
  induction h with
  | nil => cases hlk
  | cons hrun hs ih =>
    rcases (Server.step_core hs).introduces_of_listed hlk with hintro | hlk
    · exact ⟨_, List.mem_cons_self .., hintro⟩
    · obtain ⟨x, hx, hintro⟩ := ih hlk
      exact ⟨x, List.mem_cons_of_mem _ hx, hintro⟩

/-- The sessions of the entries. -/
def Server.listedSessions (s : Server) : Finset SessionId :=
  s.playerManager.players.keys.image fun p => (s.playerManager.players.lookup p).getD 0

theorem Server.mem_listedSessions (s : Server) (sid : SessionId) :
    sid ∈ s.listedSessions ↔ ∃ p, s.playerManager.players.lookup p = some sid := by
  simp only [listedSessions, Finset.mem_image, Finmap.mem_keys, Finmap.mem_iff]
  constructor
  · rintro ⟨p, ⟨sid', hlk⟩, heq⟩
    rw [hlk] at heq
    obtain rfl : sid' = sid := heq
    exact ⟨p, hlk⟩
  · rintro ⟨p, hlk⟩
    exact ⟨p, ⟨sid, hlk⟩, by rw [hlk, Option.getD_some]⟩

/-- A session has one player, so there are as many entries as sessions. -/
theorem Server.card_listedSessions {s : Server}
    (hb : ∀ {p sid}, s.playerManager.players.lookup p = some sid → s.core.Bound sid p) :
    s.listedSessions.card = s.playerManager.onlineCount := by
  refine Finset.card_image_of_injOn fun p hp q hq heq => ?_
  obtain ⟨sid, hsid⟩ := Finmap.mem_iff.1 (Finmap.mem_keys.1 hp)
  obtain ⟨sid', hsid'⟩ := Finmap.mem_iff.1 (Finmap.mem_keys.1 hq)
  simp only [hsid, hsid', Option.getD_some] at heq
  subst heq
  exact (hb hsid).unique (hb hsid')

/-- **The list is right exactly when the core says so.** -/
theorem Server.listsConnected_iff {tr : History} {s : Server} (h : server.Run tr s) :
    s.ListsConnected tr ↔ s.core.Listed := by
  have hmem : ∀ sid, sid ∈ s.connectedSessions tr ↔ s.core.Open sid ∧ tr.Introduced sid := by
    intro sid
    rw [connectedSessions, Finset.mem_filter, and_iff_right_of_imp]
    rintro ⟨⟨ses, hses, -⟩, -⟩
    exact Finmap.mem_keys.2 (Finmap.mem_of_lookup_eq_some hses)
  have hsub : ∀ hb : ∀ {p sid}, s.playerManager.players.lookup p = some sid → s.core.Bound sid p,
      s.listedSessions ⊆ s.connectedSessions tr := fun hb sid hsid => by
    obtain ⟨p, hlk⟩ := (s.mem_listedSessions sid).1 hsid
    exact (hmem sid).2 ⟨(hb hlk).isOpen, introduced_of_listed h hlk⟩
  constructor
  · intro hl
    have hb : ∀ {p sid}, s.playerManager.players.lookup p = some sid → s.core.Bound sid p :=
      fun hlk => (hl.entry hlk).2
    have heq : s.listedSessions = s.connectedSessions tr :=
      Finset.eq_of_subset_of_card_le (hsub hb) (by rw [card_listedSessions hb, hl.count])
    refine ⟨hb, fun {sid} hconn hopen => ?_⟩
    refine (s.mem_listedSessions sid).1 ?_
    rw [heq, hmem]
    exact ⟨hopen, (mem_connected_iff h hopen).1 hconn⟩
  · intro hl
    have heq : s.listedSessions = s.connectedSessions tr := by
      refine (hsub hl.bound).antisymm fun sid hsid => ?_
      obtain ⟨hopen, hintro⟩ := (hmem sid).1 hsid
      exact (s.mem_listedSessions sid).2 (hl.listed ((mem_connected_iff h hopen).2 hintro) hopen)
    have hcount : s.playerManager.onlineCount = (s.connectedSessions tr).card := by
      rw [← heq, card_listedSessions hl.bound]
    refine ⟨fun hlk => ⟨alive_of_open h (hl.bound hlk).isOpen, hl.bound hlk⟩, hcount, fun hnone => ?_⟩
    rw [hcount, Finset.card_eq_zero]
    exact Finset.eq_empty_of_forall_notMem fun sid hsid => hnone sid ((hmem sid).1 hsid).1

/-- **When `PlayerManager` lists exactly the connected players.**  In every run, each entry
is an open session with that player, and there are as many as open sessions that have logged
in or reconnected, in every state passed through, exactly when every step keeps the list. -/
theorem lists_connected_iff {tr : History} {s : Server} (h : server.Run tr s) :
    (∀ x ∈ Transition.System.reached tr s, x.2.ListsConnected x.1) ↔
      ∀ x ∈ tr, x.1.core.KeepsList (x.1.act x.2) := by
  refine h.forall_reached_iff (P := fun tr t => t.ListsConnected tr)
    (C := fun t e => t.core.KeepsList (t.act e)) ?_ fun {tr' t e t'} _ hrun hP hs => ?_
  · exact (Server.listsConnected_iff .nil).2 .init
  · have hl := (Server.listsConnected_iff hrun).1 hP
    refine Iff.trans (Server.listsConnected_iff (hrun.cons hs)) ?_
    exact hl.step_iff (alive_of_connected hrun)
      (fun hlk => (mem_connected_iff hrun (hl.bound hlk).isOpen).2 (introduced_of_listed hrun hlk))
      (Server.step_core hs)

/-- A player logs in, disconnects and reconnects on a second session. -/
theorem lists_connected_iff_reconnect : ∃ tr s, server.Run tr s ∧
    s.playerManager.players.lookup 10000 = some 1 ∧
    ∀ x ∈ Transition.System.reached tr s, x.2.ListsConnected x.1 := by
  obtain ⟨tr, s, h, hlk, hC⟩ := Server.exists_run
    (Q := fun tr s => s.playerManager.players.lookup 10000 = some 1 ∧
      ∀ x ∈ tr, x.1.core.KeepsList (x.1.act x.2))
    [.accept 0 {}, .request 0 (.login { username := [0x61] }) {}, .close 0 {}, .accept 1 {},
      .request 1 (.reconnect { playerId := 10000, token := ascii "token_10000" }) {}]
    (by decide +kernel)
  exact ⟨tr, s, h, hlk, (lists_connected_iff h).2 hC⟩

/-- **A second login leaves an entry behind.**  One client logs in twice on its connection and
disconnects: no session is open and one player counts as online, whose session object is
gone. -/
theorem entry_left_behind : ∃ tr s, server.Run tr s ∧ (∀ x ∈ tr, x.2.onOpen x.1) ∧
    (∀ sid, ¬ s.core.Open sid) ∧ s.playerManager.onlineCount = 1 ∧
    s.getSession 10000 = .ok none ∧ ¬ s.ListsConnected tr := by
  obtain ⟨tr, s, h, hopen, hses, hcount, hget⟩ := Server.exists_run
    (Q := fun tr s => (∀ x ∈ tr, x.2.onOpen x.1) ∧
      (s.sessions.keys = {0} ∧ ¬ s.core.Open 0) ∧ s.playerManager.onlineCount = 1 ∧
      s.getSession 10000 = .ok none)
    [.accept 0 {}, .request 0 (.login { username := [0x61] }) {},
      .request 0 (.login { username := [0x61] }) {}, .close 0 {}, .release 0]
    (by decide +kernel)
  have hclosed : ∀ sid, ¬ s.core.Open sid := by
    rintro sid ⟨ses, hlk, hflag⟩
    have hmem : sid ∈ s.sessions.keys := Finmap.mem_keys.2 (Finmap.mem_of_lookup_eq_some hlk)
    rw [hses.1, Finset.mem_singleton] at hmem
    exact hses.2 (hmem ▸ ⟨ses, hlk, hflag⟩)
  refine ⟨tr, s, h, hopen, hclosed, hcount, hget, fun hl => ?_⟩
  rw [hl.none_left hclosed] at hcount
  cases hcount

end GameServer
