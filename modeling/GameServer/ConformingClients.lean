/-
# Clients that follow the simulator

`client/ClientSimulator.cpp` sends one LoginReq or ReconnectReq on each connection, the
ReconnectReq with an identity that was issued, and one MatchReq for its player, with its
own id and on the connection that logged it in.  `Conforms` says this of a run, with
chats, heartbeats and rankings in between as the clients like.

`Ledger` is what such clients have done so far, as far as it matters, and grows with
every step (`Ledger.Records`); a step of a conforming run is one the ledger allows
(`Ledger.allows_of_sends`).  What follows first is `Introduced`: a session is given a
player once and keeps it, and the players in `players_` are those of open sessions.
-/

import GameServer.Binding
import GameServer.Registration

namespace GameServer

/-! ### The clients -/

/-- The event is a MatchReq for the player. -/
def Event.requestsMatch (p : PlayerId) : Event → Bool
  | .request _ (.match req) _ => toInt req.playerId = p
  | _ => false

/-- What a client following the simulator may send after `tr`, in the state `s`. -/
def Sends (tr : History) (s : Server) : Event → Prop
  | .request sid (.login _) _ => ∀ x ∈ tr, ¬ x.2.introduces sid
  | .request sid (.reconnect req) _ => (∀ x ∈ tr, ¬ x.2.introduces sid) ∧
      ∃ x ∈ s.issued, x.2 = (toInt req.playerId, req.token)
  | .request sid (.match req) _ => (∀ x ∈ tr, ¬ x.2.requestsMatch (toInt req.playerId)) ∧
      ∃ x ∈ s.issued, x.1 = sid ∧ x.2.1 = toInt req.playerId
  | _ => True

/-- The clients of the run follow the simulator, and the messages of a session are
handled before its close. -/
def Conforms : History → Prop
  | [] => True
  | (s, e) :: tr => e.onOpen s ∧ Sends tr s e ∧ Conforms tr

instance (tr : History) (s : Server) : (e : Event) → Decidable (Sends tr s e)
  | .request _ (.login _) _ => inferInstanceAs (Decidable (∀ x ∈ tr, _))
  | .request _ (.reconnect _) _ => inferInstanceAs (Decidable ((∀ x ∈ tr, _) ∧ ∃ x ∈ s.issued, _))
  | .request _ (.match _) _ => inferInstanceAs (Decidable ((∀ x ∈ tr, _) ∧ ∃ x ∈ s.issued, _))
  | .request _ (.chat _) _ | .request _ (.heartbeat _) _ | .request _ (.ranking _ _) _
  | .request _ (.unregistered _) _ | .accept .. | .close .. | .release _ | .sweep .. =>
    inferInstanceAs (Decidable True)

instance decidableConforms : (tr : History) → Decidable (Conforms tr)
  | [] => inferInstanceAs (Decidable True)
  | (s, e) :: tr =>
    have := decidableConforms tr
    inferInstanceAs (Decidable (e.onOpen s ∧ Sends tr s e ∧ Conforms tr))

/-- A part of a conforming history conforms. -/
theorem conforms_of_append {tr₂ tr₁ : History} (h : Conforms (tr₂ ++ tr₁)) : Conforms tr₁ := by
  induction tr₂ with
  | nil => exact h
  | cons x tr₂ ih => exact ih h.2.2

/-! ### The ledger -/

/-- What the clients have done: the sessions that sent a LoginReq or a ReconnectReq, the
players a MatchReq was sent for, the identities they were issued, and the times at which
sessions were closed. -/
structure Ledger where
  introduced : Set SessionId := ∅
  matched : Set PlayerId := ∅
  issued : List (SessionId × PlayerId × Bytes) := []
  closed : Set Time := ∅

/-- The time of the close callback. -/
def Act.closedAt : Act → Option Time
  | .close _ now => some now
  | _ => none

/-- The ledger of a history that ends in `s`. -/
def History.ledger (tr : History) (s : Server) : Ledger where
  introduced := {sid | ∃ x ∈ tr, x.2.introduces sid}
  matched := {p | ∃ x ∈ tr, x.2.requestsMatch p}
  issued := s.issued
  closed := {t | ∃ x ∈ tr, t ∈ (x.1.act x.2).closedAt}

/-- The act is one that the clients' requests allow. -/
def Ledger.Allows (L : Ledger) (c : Core) : Act → Prop
  | .login sid => c.Open sid ∧ sid ∉ L.introduced
  | .resume sid p _ => c.Open sid ∧ sid ∉ L.introduced ∧ p ≠ 0
  | .wait p | .room p _ => p ∉ L.matched ∧ ∃ x ∈ L.issued, x.2.1 = p ∧ c.Open x.1
  | _ => True

/-- The act queues the player. -/
def Act.requestsMatch (p : PlayerId) : Act → Prop
  | .wait q | .room q _ => q = p
  | _ => False

/-- `L'` has what `L` has, and what the act adds. -/
structure Ledger.Records (L L' : Ledger) (c : Core) (a : Act) : Prop where
  introduced : ∀ {sid}, sid ∈ L.introduced ∨ a.introduces sid → sid ∈ L'.introduced
  matched : ∀ {p}, p ∈ L.matched ∨ a.requestsMatch p → p ∈ L'.matched
  issued : L'.issued = L.issued ++ a.issues c
  closed : ∀ {t}, t ∈ L.closed ∨ t ∈ a.closedAt → t ∈ L'.closed

/-! ### From events to acts -/

theorem Server.requestsMatch_of_act {s : Server} {e : Event} {p : PlayerId}
    (h : (s.act e).requestsMatch p) : e.requestsMatch p := by
  have hinv := s.act_inv e
  cases hact : s.act e with
  | wait q | room q _ =>
    rw [hact] at h hinv
    obtain ⟨sid, req, now, rfl, hq⟩ := hinv
    exact decide_eq_true (hq.trans h)
  | _ => exact (hact ▸ h).elim

/-- The ledger of a longer history. -/
theorem History.records_ledger (tr : History) {s s' : Server} {e : Event}
    (hs : server.step s e s') :
    (tr.ledger s).Records (History.ledger ((s, e) :: tr) s') s.core (s.act e) where
  introduced := by
    rintro sid (⟨x, hx, h⟩ | h)
    · exact ⟨x, List.mem_cons_of_mem _ hx, h⟩
    · exact ⟨(s, e), List.mem_cons_self .., Server.introduces_of_act h⟩
  matched := by
    rintro p (⟨x, hx, h⟩ | h)
    · exact ⟨x, List.mem_cons_of_mem _ hx, h⟩
    · exact ⟨(s, e), List.mem_cons_self .., Server.requestsMatch_of_act h⟩
  issued := Server.step_issued hs
  closed := by
    rintro t (⟨x, hx, h⟩ | h)
    · exact ⟨x, List.mem_cons_of_mem _ hx, h⟩
    · exact ⟨(s, e), List.mem_cons_self .., h⟩

/-- What a conforming client sends is allowed. -/
theorem Ledger.allows_of_sends {tr : History} {s : Server} {e : Event}
    (hissued : ∀ x ∈ s.issued, x.2.1 ≠ 0) (hen : s.Enabled e) (hopen : e.onOpen s)
    (hsends : Sends tr s e) : (tr.ledger s).Allows s.core (s.act e) := by
  have hinv := s.act_inv e
  cases hact : s.act e with
  | login sid =>
    rw [hact] at hinv
    obtain ⟨req, now, rfl⟩ := hinv
    exact ⟨Server.isOpen_of_alive hen.1 hopen, fun ⟨x, hx, h⟩ => hsends x hx h⟩
  | resume sid p token =>
    rw [hact] at hinv
    obtain ⟨req, now, rfl, rfl, -⟩ := hinv
    obtain ⟨hnew, x, hx, heq⟩ := hsends
    refine ⟨Server.isOpen_of_alive hen.1 hopen, fun ⟨y, hy, h⟩ => hnew y hy h, fun h0 => ?_⟩
    refine hissued x hx ?_
    rw [heq, h0]
  | wait p | room p _ =>
    rw [hact] at hinv
    obtain ⟨sid, req, now, rfl, rfl⟩ := hinv
    obtain ⟨hnew, x, hx, hsid, hp⟩ := hsends
    exact ⟨fun ⟨y, hy, h⟩ => hnew y hy h, x, hx, hp, hsid ▸ Server.isOpen_of_alive hen.1 hopen⟩
  | _ => trivial

/-! ### Who the sessions belong to -/

/-- A session is given a player once, and keeps it; the players in `players_` are the ones
bound to open sessions. -/
structure Introduced (c : Core) (L : Ledger) : Prop where
  session : ∀ {sid ses}, c.sessions.lookup sid = some ses → sid ∉ L.introduced → ses.playerId = 0
  issued : ∀ x ∈ L.issued, x.1 ∈ L.introduced ∧
    ∃ ses, c.sessions.lookup x.1 = some ses ∧ ses.playerId = x.2.1
  player : ∀ {p sid}, c.playerManager.players.lookup p = some sid → p ≠ 0 ∧ c.Bound sid p

namespace Introduced

variable {c c' : Core} {L L' : Ledger}

theorem init : Introduced {} {} where
  session h := by simp at h
  issued x hx := absurd hx List.not_mem_nil
  player h := by simp at h

/-- A step that leaves the sessions' players and `players_` as they are. -/
theorem congr (h : Introduced c L) (hin : L.introduced ⊆ L'.introduced)
    (hissued : L'.issued = L.issued)
    (hses : ∀ sid, (c'.sessions.lookup sid).map Session.playerId =
      (c.sessions.lookup sid).map Session.playerId)
    (hpl : ∀ {p sid}, c'.playerManager.players.lookup p = some sid →
      c.playerManager.players.lookup p = some sid)
    (hbound : ∀ {p sid}, c'.playerManager.players.lookup p = some sid →
      c.Bound sid p → c'.Bound sid p) : Introduced c' L' where
  session := by
    intro sid ses hlk hnew
    have hmap := hses sid
    rw [hlk, Option.map_some] at hmap
    obtain ⟨ses₀, hses₀, heq⟩ := Option.map_eq_some_iff.1 hmap.symm
    exact heq ▸ h.session hses₀ fun hold => hnew (hin hold)
  issued x hx := by
    rw [hissued] at hx
    obtain ⟨hmem, ses₀, hses₀, heq⟩ := h.issued x hx
    have hmap := hses x.1
    rw [hses₀, Option.map_some] at hmap
    obtain ⟨ses, hlk, heq'⟩ := Option.map_eq_some_iff.1 hmap
    exact ⟨hin hmem, ses, hlk, heq'.trans heq⟩
  player hp :=
    let ⟨hp0, hb⟩ := h.player (hpl hp)
    ⟨hp0, hbound hp hb⟩

/-- A session that has not logged in or reconnected is nobody's. -/
theorem ne_of_player (h : Introduced c L) {sid sid' : SessionId} {p : PlayerId}
    (hsid : sid ∉ L.introduced) (hp : c.playerManager.players.lookup p = some sid') : sid' ≠ sid := by
  rintro rfl
  obtain ⟨hp0, ses, hses, -, rfl⟩ := h.player hp
  exact hp0 (h.session hses hsid)

/-- The player that an open session was issued is connected. -/
theorem connected (h : Introduced c L) (hw : WellBound c) {p : PlayerId} (hp : 0 < p)
    (hx : ∃ x ∈ L.issued, x.2.1 = p ∧ c.Open x.1) : p ∈ c.playerManager.players := by
  obtain ⟨⟨sid, p, token⟩, hmem, rfl, ses, hses, hopen⟩ := hx
  obtain ⟨-, ses', hses', hp'⟩ := h.issued _ hmem
  obtain rfl := Option.some.inj (hses.symm.trans hses')
  exact Finmap.mem_of_lookup_eq_some (hw.bound ⟨ses, hses, hopen, hp'⟩ hp.ne')

theorem accept (h : Introduced c L) {sid : SessionId} (hin : L.introduced ⊆ L'.introduced)
    (hissued : L'.issued = L.issued) (hsid : sid ∉ c.sessions) :
    Introduced { c with sessions := c.sessions.insert sid {} } L' where
  session := by
    intro sid' ses hses hnew
    rcases Core.session_insert rfl hses with rfl | hses
    · rfl
    · exact h.session hses fun hold => hnew (hin hold)
  issued x hx := by
    rw [hissued] at hx
    obtain ⟨hmem, ses, hses, hp⟩ := h.issued x hx
    refine ⟨hin hmem, ses, ?_, hp⟩
    rw [Table.lookup_insert', if_neg, hses]
    exact fun e => hsid (e ▸ Finmap.mem_of_lookup_eq_some hses)
  player := by
    intro p sid' hp
    obtain ⟨hp0, hb⟩ := h.player hp
    refine ⟨hp0, ?_⟩
    rw [Core.bound_insert rfl, if_neg]
    · exact hb
    · obtain ⟨ses, hses, -⟩ := hb
      exact fun e => hsid (e ▸ Finmap.mem_of_lookup_eq_some hses)

/-- A session is given a player, as a login and a reconnect do. -/
theorem rebind (h : Introduced c L) {sid : SessionId} {p : PlayerId} {token : Bytes}
    (hopen : c.Open sid) (hsid : sid ∉ L.introduced) (hp : p ≠ 0)
    (hin : L.introduced ⊆ L'.introduced) (hsid' : sid ∈ L'.introduced)
    (hissued : ∀ x ∈ L'.issued, x ∈ L.issued ∨ x.1 = sid ∧ x.2.1 = p)
    (hs : c'.sessions = c.sessions.modify sid fun ses =>
      { ses with playerId := p, token := token })
    (hpl : c'.playerManager = c.playerManager.addPlayer p sid) : Introduced c' L' where
  session := by
    intro sid' ses hses hnew
    have hne : sid' ≠ sid := fun e => hnew (e ▸ hsid')
    rw [hs, Table.lookup_modify, if_neg hne] at hses
    exact h.session hses fun hold => hnew (hin hold)
  issued x hx := by
    rw [hs, Table.lookup_modify]
    rcases hissued x hx with hx | ⟨hx, hxp⟩
    · obtain ⟨hmem, hses⟩ := h.issued x hx
      rw [if_neg fun e : x.1 = sid => hsid (e ▸ hmem)]
      exact ⟨hin hmem, hses⟩
    · obtain ⟨ses, hses, -⟩ := hopen
      rw [if_pos hx, hses, hx, hxp]
      exact ⟨hsid', _, rfl, rfl⟩
  player := by
    intro q sid' hq
    rw [hpl, PlayerManager.addPlayer, Table.lookup_insert'] at hq
    rw [Core.bound_rebind hs]
    split_ifs at hq with hqp
    · obtain rfl := Option.some.inj hq
      rw [if_pos rfl]
      exact ⟨hqp ▸ hp, hopen, hqp⟩
    · rw [if_neg (h.ne_of_player hsid hq)]
      exact h.player hq

/-- **The invariant is kept by every step** that the clients' requests allow. -/
theorem step {a : Act} (h : Introduced c L) (hw : WellBound c) (hallow : L.Allows c a)
    (hrec : L.Records L' c a) (hs : CoreStep c a c') : Introduced c' L' := by
  have hin : L.introduced ⊆ L'.introduced := fun _ hsid => hrec.introduced (.inl hsid)
  have hissued := hrec.issued
  cases hs with
  | accept hsid => exact h.accept hin (hissued.trans (List.append_nil _)) hsid
  | @login sid _ =>
    have hnext : c.nextPlayerId ≠ 0 := fun e => hw.next_not_known (.inl e)
    refine h.rebind hallow.1 hallow.2 hnext hin (hrec.introduced (.inr rfl)) (fun x hx => ?_) rfl rfl
    rw [hissued, List.mem_append] at hx
    refine hx.imp_right fun hx => ?_
    rw [List.mem_singleton.1 hx]
    exact ⟨rfl, rfl⟩
  | @resume sid p token _ _ _ _ _ =>
    refine h.rebind hallow.1 hallow.2.1 hallow.2.2 hin (hrec.introduced (.inr rfl))
      (fun x hx => .inl ?_) rfl rfl
    simpa only [hissued, Act.issues, List.append_nil] using hx
  | @close sid ses _ _ hses _ _ _ =>
    refine h.congr hin (hissued.trans (List.append_nil _)) (fun sid' => ?_) (fun {p sid'} hp => ?_)
      fun {p sid'} hp hb => ?_
    · rw [Table.lookup_modify]
      split_ifs with he
      · rw [he, Option.map_map]
        rfl
      · rfl
    · rw [PlayerManager.removePlayer, Table.lookup_erase'] at hp
      split_ifs at hp
      exact hp
    · rw [PlayerManager.removePlayer, Table.lookup_erase'] at hp
      split_ifs at hp with hne
      refine (Core.bound_close rfl ..).2 ⟨?_, hb⟩
      rintro rfl
      obtain ⟨ses', hses', -, rfl⟩ := hb
      exact hne (congrArg Session.playerId (Option.some.inj (hses'.symm.trans hses)))
  | release hses _ _ =>
    refine h.congr hin (hissued.trans (List.append_nil _)) (fun sid' => ?_) id
      fun _ hb => (Core.bound_release rfl ..).2 hb
    rw [Table.lookup_modify]
    split_ifs with he
    · rw [he, Option.map_map]
      rfl
    · rfl
  | sweep _ _ hfold =>
    have hframe := Core.sweep_frame hfold
    rw [hframe]
    exact h.congr hin (hissued.trans (List.append_nil _)) (fun _ => rfl) id fun _ hb => hb
  | idle | wait _ _ _ | room _ _ _ _ =>
    exact h.congr hin (hissued.trans (List.append_nil _)) (fun _ => rfl) id fun _ hb => hb

end Introduced

end GameServer
