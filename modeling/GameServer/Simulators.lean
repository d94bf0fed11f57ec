/-
# Simulators conform

What `Conforms` asks of clients is what `ClientSimulator` does.  `Honest` is what holds of a
deployment: a connection belongs to one process; the first that is written on it is the LoginReq, or
the ReconnectReq when the process has come back, and there is no other; and a process writes a
MatchReq for each LoginResp with code 0 that it has read, on the connection it has read it from.
There is one LoginResp for a LoginReq (`Honest.issued_le_one`), so there is one MatchReq, and nobody
else has the id.

A run of a deployment conforms, therefore, exactly when no request is handled on a session that was
closed (`deployment_conforms`).
-/

import GameServer.ConformingClients
import GameServer.Deployment
import GameServer.Replies

namespace GameServer

namespace ClientRequest

/-- A LoginReq or a ReconnectReq. -/
def introduces : ClientRequest → Bool
  | login _ | reconnect _ => true
  | _ => false

def isLogin : ClientRequest → Bool
  | login _ => true
  | _ => false

def isMatch : ClientRequest → Bool
  | .match _ => true
  | _ => false

/-- A client may write such a request at any time. -/
def isFree : ClientRequest → Bool
  | chat _ | heartbeat _ | ranking _ => true
  | _ => false

end ClientRequest

/-- The message is a LoginResp with code 0. -/
def Response.issues (r : Response) : Bool := r.issued.isSome

namespace Deployment

/-- The messages that were read on a connection. -/
def readOn (w : Deployment) (sid : SessionId) : List Response :=
  (w.sentTo sid).take (w.reads sid).length

/-- What entitles a client to write a request as the `k`-th on a connection. -/
def Warrants (w : Deployment) (c : ClientProcess) (sid : SessionId) (k : ℕ) : ClientRequest → Prop
  | .login _ => k = 0 ∧ c.connections.head? = some sid
  | .reconnect req => k = 0 ∧ c.connections.head? ≠ some sid ∧
      ∃ x ∈ w.server.server.issued, toInt x.2.1 = toInt req.playerId ∧ x.2.2 = req.token
  | .match req => ∃ x ∈ w.server.server.issued, x.1 = sid ∧ toInt x.2.1 = toInt req.playerId
  | .chat _ | .heartbeat _ | .ranking _ => True

/-- Who a client is: nobody, on its only connection, or whom a LoginResp on its first one says. -/
def Identity (w : Deployment) (c : ClientProcess) : Prop :=
  (c.client.token = [] ∧ c.connections.length ≤ 1) ∨
    ∃ sid, c.connections.head? = some sid ∧ 0 < (w.readOn sid).countP Response.issues ∧
      ∃ x ∈ w.server.server.issued, toInt x.2.1 = c.client.playerId ∧ x.2.2 = c.client.token

/-- What clients write goes back on what they are entitled to, and is handled in order. -/
structure Honest (tr : History) (w : Deployment) : Prop where
  connected : ∀ i, ∀ sid ∈ (w.client i).connections, sid ∈ w.connected
  owner : ∀ {i j sid}, sid ∈ (w.client i).connections → sid ∈ (w.client j).connections → i = j
  owned : ∀ {sid}, w.wrote sid ≠ [] → ∃ i, sid ∈ (w.client i).connections
  warrants : ∀ i, ∀ sid ∈ (w.client i).connections, ∀ k x, (w.wrote sid)[k]? = some x →
    w.Warrants (w.client i) sid k x.2
  asked : ∀ sid, (w.wrote sid).countP (fun x => x.2.isMatch) ≤
    (w.readOn sid).countP Response.issues
  identity : ∀ i, w.Identity (w.client i)
  bounded : ∀ sid, w.handled sid ≤ (w.wrote sid).length
  served : ∀ sid, ((tr.requestsOn sid).map fun x => x.2.written) =
    ((w.wrote sid).take (w.handled sid)).map fun x => some x.2

end Deployment

/-- What only the first of a list can be is there once at most. -/
theorem countP_le_one {α : Type*} {p : α → Bool} {l : List α}
    (h : ∀ k x, l[k]? = some x → p x = true → k = 0) : l.countP p ≤ 1 := by
  cases l with
  | nil => exact Nat.zero_le _
  | cons a l =>
    have hrest : l.countP p = 0 := List.countP_eq_zero.2 fun x hx hp => by
      obtain ⟨k, hk⟩ := List.mem_iff_getElem?.1 hx
      exact absurd (h (k + 1) x hk hp) (Nat.succ_ne_zero k)
    rw [List.countP_cons, hrest]
    split_ifs <;> decide

theorem head?_extend {α : Type*} {l l' : List α} (h : l <+: l') (hne : l ≠ []) :
    l'.head? = l.head? := by
  obtain ⟨rest, rfl⟩ := h
  obtain ⟨a, ha⟩ := Option.isSome_iff_exists.1 (List.isSome_head?.2 hne)
  rw [List.head?_append, ha, Option.some_or]

namespace Deployment

variable {tr : History} {w w' : Deployment}

/-! ### What the server makes of it -/

namespace Honest

/-- A request that was written is warranted. -/
theorem warranted (h : Honest tr w) {sid : SessionId} {k : ℕ} {x : Time × ClientRequest}
    (hx : (w.wrote sid)[k]? = some x) :
    ∃ i, sid ∈ (w.client i).connections ∧ w.Warrants (w.client i) sid k x.2 := by
  obtain ⟨i, hi⟩ := h.owned fun hnil => by rw [hnil] at hx; cases hx
  exact ⟨i, hi, h.warrants i sid hi k x hx⟩

/-- A connection begins with the request that introduces its client. -/
theorem first_of_introduces (h : Honest tr w) {sid : SessionId} {k : ℕ} {x : Time × ClientRequest}
    (hx : (w.wrote sid)[k]? = some x) (hintro : x.2.introduces = true) : k = 0 := by
  obtain ⟨i, -, hwarrant⟩ := h.warranted hx
  cases hq : x.2 with
  | login req | reconnect req =>
    rw [hq] at hwarrant
    exact hwarrant.1
  | «match» req | chat req | heartbeat req | ranking req =>
    rw [hq] at hintro
    cases hintro

/-- A request that was handled was written. -/
theorem exists_wrote (h : Honest tr w) {sid : SessionId} {x : Server × Request}
    (hx : x ∈ tr.requestsOn sid) : ∃ k < w.handled sid, ∃ y, (w.wrote sid)[k]? = some y ∧
      x.2.written = some y.2 := by
  have hmem : x.2.written ∈ ((w.wrote sid).take (w.handled sid)).map fun y => some y.2 := by
    rw [← h.served]
    exact List.mem_map_of_mem hx
  obtain ⟨y, hy, heq⟩ := List.mem_map.1 hmem
  obtain ⟨k, hk⟩ := List.mem_iff_getElem?.1 hy
  have hlt : k < w.handled sid := by
    have hlen := (List.getElem?_eq_some_iff.1 hk).1
    rw [List.length_take] at hlen
    omega
  rw [List.getElem?_take_of_lt hlt] at hk
  exact ⟨k, hlt, y, hk, heq.symm⟩

/-- A reply answers a request that was written. -/
theorem exists_request (h : Honest tr w) (hrun : GameServer.server.Run tr w.server.server) {sid : SessionId}
    {r : Response} (hr : r ∈ w.sentTo sid) (hreply : r.isReply = true) :
    ∃ x ∈ tr.requestsOn sid, x.1.Answers x.2 r ∧
      ∃ (k : ℕ) (y : Time × ClientRequest), (w.wrote sid)[k]? = some y ∧ x.2.written = some y.2 := by
  obtain ⟨x, hx, hans⟩ := exists_of_mem_right (Server.replies_answer hrun sid) r
    (List.mem_filter.2 ⟨hr, hreply⟩)
  have hmem := List.mem_of_mem_filter hx
  obtain ⟨k, -, y, hy, heq⟩ := h.exists_wrote hmem
  exact ⟨x, hmem, hans, k, y, hy, heq⟩

end Honest

theorem isReply_of_issues {r : Response} (h : r.issues = true) : r.isReply = true := by
  cases r <;> first | rfl | cases h

/-- Only a LoginReq is answered with an identity. -/
theorem written_of_issues {s : Server} {req : Request} {r : Response} (h : s.Answers req r)
    (hr : r.issues = true) : ∃ req', req.written = some (.login req') := by
  cases req with
  | login req' => exact ⟨req', rfl⟩
  | _ =>
    cases r with
    | loginResp r => exact h.elim
    | _ => cases hr

namespace Honest

/-- **One identity is issued on a connection**, at most. -/
theorem issued_le_one (h : Honest tr w) (hrun : GameServer.server.Run tr w.server.server) (sid : SessionId) :
    (w.sentTo sid).countP Response.issues ≤ 1 := by
  have hreplies : (w.sentTo sid).countP Response.issues =
      ((w.sentTo sid).filter Response.isReply).countP Response.issues := by
    rw [List.countP_filter]
    refine List.countP_congr fun r _ => ?_
    simp only [Bool.and_eq_true]
    exact ⟨fun hr => ⟨hr, isReply_of_issues hr⟩, fun hr => hr.1⟩
  calc (w.sentTo sid).countP Response.issues
      = ((w.sentTo sid).filter Response.isReply).countP Response.issues := hreplies
    _ ≤ (tr.answeredOn sid).countP fun x => x.2.written.any ClientRequest.isLogin := by
        refine countP_le_of_forall₂ (Server.replies_answer hrun sid) fun x r hans hr => ?_
        obtain ⟨req, hreq⟩ := written_of_issues hans hr
        rw [hreq]
        rfl
    _ ≤ (tr.requestsOn sid).countP fun x => x.2.written.any ClientRequest.isLogin :=
        List.filter_sublist.countP_le
    _ = ((w.wrote sid).take (w.handled sid)).countP fun x => x.2.isLogin := by
        have hmap := congrArg (List.countP fun q => Option.any ClientRequest.isLogin q) (h.served sid)
        rw [List.countP_map, List.countP_map] at hmap
        exact hmap
    _ ≤ (w.wrote sid).countP fun x => x.2.isLogin := (List.take_sublist _ _).countP_le
    _ ≤ 1 := countP_le_one fun k x hx hlogin => h.first_of_introduces hx (by
        cases hq : x.2 with
        | login => rfl
        | _ =>
          rw [hq] at hlogin
          cases hlogin)

/-- An identity is issued on the first connection of a client. -/
theorem head_of_issues (h : Honest tr w) (hrun : GameServer.server.Run tr w.server.server) {sid : SessionId}
    {r : Response} (hr : r ∈ w.sentTo sid) (hissues : r.issues = true) {i : ℕ}
    (hi : sid ∈ (w.client i).connections) : (w.client i).connections.head? = some sid := by
  obtain ⟨x, -, hans, k, y, hy, heq⟩ := h.exists_request hrun hr (isReply_of_issues hissues)
  obtain ⟨req, hreq⟩ := written_of_issues hans hissues
  have hwarrant := h.warrants i sid hi k y hy
  rw [Option.some.inj (heq.symm.trans hreq)] at hwarrant
  exact hwarrant.2

/-- A client that reads an identity has not read one before. -/
theorem identity_of_read (h : Honest tr w) (hrun : GameServer.server.Run tr w.server.server) {sid : SessionId}
    {r : Response} (hr : (w.sentTo sid)[(w.reads sid).length]? = some r) (hissues : r.issues = true)
    {i : ℕ} (hi : sid ∈ (w.client i).connections) :
    (w.client i).connections = [sid] := by
  have hhead := h.head_of_issues hrun (List.mem_of_getElem? hr) hissues hi
  rcases h.identity i with ⟨-, hlen⟩ | ⟨sid', hhead', hread, -⟩
  · obtain ⟨rest, hrest⟩ := List.head?_eq_some_iff.1 hhead
    have hnil : rest = [] := by
      rw [hrest, List.length_cons] at hlen
      exact List.eq_nil_of_length_eq_zero (by omega)
    rw [hrest, hnil]
  · obtain rfl := Option.some.inj (hhead'.symm.trans hhead)
    -- The one that was read and this one are two.
    have htwo : (w.readOn sid' ++ [r]).countP Response.issues ≤ 1 := by
      refine le_trans (List.Sublist.countP_le ?_) (h.issued_le_one hrun sid')
      have htake : (w.sentTo sid').take ((w.reads sid').length + 1) = w.readOn sid' ++ [r] := by
        rw [List.take_add_one, hr]
        rfl
      exact htake ▸ List.take_sublist _ _
    rw [List.countP_append, List.countP_cons_of_pos hissues] at htwo
    omega

end Honest
/-! ### What the steps keep -/

/-- More was sent and read. -/
structure Later (w w' : Deployment) : Prop where
  sent : w.server.server.sent <+: w'.server.server.sent
  reads : ∀ sid, (w.reads sid).length ≤ (w'.reads sid).length

namespace Later

theorem issued (h : Later w w') : w.server.server.issued ⊆ w'.server.server.issued :=
  (h.sent.filterMap _).subset

theorem sentTo (h : Later w w') (sid : SessionId) : w.sentTo sid <+: w'.sentTo sid :=
  (h.sent.filter _).map _

theorem readOn (h : Later w w') (sid : SessionId) : w.readOn sid <+: w'.readOn sid :=
  ((h.sentTo sid).take _).trans (List.take_prefix_take_left (h.reads sid))

theorem countP_readOn (h : Later w w') (sid : SessionId) (p : Response → Bool) :
    (w.readOn sid).countP p ≤ (w'.readOn sid).countP p := (h.readOn sid).sublist.countP_le

/-- An entitlement stays. -/
theorem warrants (h : Later w w') {c c' : ClientProcess} {sid : SessionId} {k : ℕ}
    {q : ClientRequest} (hhead : c'.connections.head? = c.connections.head?)
    (hq : w.Warrants c sid k q) : w'.Warrants c' sid k q := by
  cases q with
  | login req => exact ⟨hq.1, hhead.trans hq.2⟩
  | reconnect req =>
    obtain ⟨hk, hne, x, hx, hid⟩ := hq
    exact ⟨hk, fun he => hne (hhead.symm.trans he), x, h.issued hx, hid⟩
  | «match» req =>
    obtain ⟨x, hx, hid⟩ := hq
    exact ⟨x, h.issued hx, hid⟩
  | chat req | heartbeat req | ranking req => trivial

/-- A client stays who it is. -/
theorem identity (h : Later w w') {c c' : ClientProcess} (hconn : c'.connections = c.connections)
    (hid : c'.client.playerId = c.client.playerId) (htoken : c'.client.token = c.client.token)
    (hc : w.Identity c) : w'.Identity c' := by
  rcases hc with ⟨hnone, hlen⟩ | ⟨sid, hhead, hread, x, hx, heq⟩
  · exact .inl ⟨htoken.trans hnone, hconn ▸ hlen⟩
  · refine .inr ⟨sid, hconn ▸ hhead, hread.trans_le (h.countP_readOn sid _), x, h.issued hx, ?_⟩
    rwa [hid, htoken]

end Later

theorem later_act (w : Deployment) (i : ℕ) (e : ClientEvent) (now : Time) : Later w (w.act i e now) where
  sent := List.prefix_rfl
  reads sid := by
    show _ ≤ (w.reads sid ++ _).length
    rw [List.length_append]
    exact Nat.le_add_right ..

/-- The event makes a connection or none. -/
theorem connections_step {c : ClientProcess} {now : Time} {e : ClientEvent} (hen : c.Enabled now e) :
    (c.step now e).1.connections = c.connections ++ (e.connects c).toList := by
  cases e with
  | start sid playerId roomId chat =>
    rw [show c.connections = [] from hen]
    cases chat <;> rfl
  | testReconnect sid playerId roomId chat =>
    rw [show c.connections = [] from hen]
    rfl
  | chat =>
    simp only [ClientProcess.step, ClientProcess.durationChat, ClientEvent.connects]
    split_ifs <;> exact (List.append_nil _).symm
  | reconnect sid =>
    simp only [ClientProcess.step, ClientProcess.reconnect, ClientEvent.connects]
    split_ifs
    · exact (List.append_nil _).symm
    · rfl
  | read sid msg =>
    refine Eq.trans ?_ (List.append_nil _).symm
    cases msg with
    | reconnectResp resp =>
      simp only [ClientProcess.step, ClientProcess.handleMessage]
      split_ifs <;> rfl
    | _ => rfl
  | heartbeat | rank | stopHeartbeat => exact (List.append_nil _).symm

theorem connections_act {i : ℕ} {e : ClientEvent} {now : Time} (hen : (w.client i).Enabled now e)
    (j : ℕ) : ((w.act i e now).client j).connections =
      (w.client j).connections ++ if j = i then (e.connects (w.client i)).toList else [] := by
  by_cases hj : j = i
  · subst hj
    rw [client_act_self, connections_step hen, if_pos rfl]
  · rw [client_act_of_ne _ hj, if_neg hj, List.append_nil]

theorem connections_grow {i : ℕ} {e : ClientEvent} {now : Time}
    (hen : (w.client i).Enabled now e) (j : ℕ) :
    (w.client j).connections <+: ((w.act i e now).client j).connections :=
  connections_act hen j ▸ List.prefix_append ..

/-- A connection is an old one of the client, or the new one. -/
theorem mem_connections_act {i j : ℕ} {e : ClientEvent} {now : Time}
    (hen : (w.client i).Enabled now e) {sid : SessionId}
    (hsid : sid ∈ ((w.act i e now).client j).connections) :
    sid ∈ (w.client j).connections ∨ j = i ∧ sid ∈ e.connects (w.client i) := by
  rw [connections_act hen, List.mem_append] at hsid
  refine hsid.imp_right fun hs => ?_
  split_ifs at hs with hj
  · exact ⟨hj, Option.mem_toList.1 hs⟩
  · cases hs

/-- What a client has to keep: it is entitled to what it writes, to a MatchReq for each identity it
has read, and stays who it is or reads who it is. -/
structure Keeps (w w' : Deployment) (c : ClientProcess) (qs : List ClientRequest) : Prop where
  warrants : ∀ sid, c.socket = some sid → ∀ k q, qs[k]? = some q →
    w'.Warrants c sid ((w.wrote sid).length + k) q
  asked : ∀ sid, (w.readOn sid).countP Response.issues +
    (if c.socket = some sid then qs.countP ClientRequest.isMatch else 0) ≤
      (w'.readOn sid).countP Response.issues
  identity : w'.Identity c

/-- A client that writes nothing but chats, heartbeats and rankings. -/
theorem Keeps.of_free (hlater : Later w w') {c c' : ClientProcess} {qs : List ClientRequest}
    (hconn : c'.connections = c.connections) (hid : c'.client.playerId = c.client.playerId)
    (htoken : c'.client.token = c.client.token) (hqs : ∀ q ∈ qs, q.isFree = true)
    (hc : w.Identity c) : Keeps w w' c' qs where
  warrants sid _ k q hq := by
    have hfree := hqs q (List.mem_of_getElem? hq)
    cases q with
    | login | reconnect | «match» => cases hfree
    | chat | heartbeat | ranking => trivial
  asked sid := by
    have hnone : qs.countP ClientRequest.isMatch = 0 := List.countP_eq_zero.2 fun q hq hm => by
      have hfree := hqs q hq
      cases q with
      | «match» => cases hfree
      | _ => cases hm
    rw [hnone, ite_self, Nat.add_zero]
    exact hlater.countP_readOn sid _
  identity := hlater.identity hconn hid htoken hc

/-- A message is read. -/
theorem readOn_act_read {i : ℕ} {sid : SessionId} {msg : Response} {now : Time}
    (hread : (w.sentTo sid)[(w.reads sid).length]? = some msg) :
    (w.act i (.read sid msg) now).readOn sid = w.readOn sid ++ [msg] := by
  show (w.sentTo sid).take (w.reads sid ++ if some sid = some sid then [now] else []).length = _
  rw [if_pos rfl, List.length_append, List.length_singleton, List.take_add_one, hread]
  rfl

theorem warrants_single {c : ClientProcess} {sid : SessionId} {n : ℕ} {q₀ : ClientRequest}
    (h : w.Warrants c sid n q₀) : ∀ k q, [q₀][k]? = some q → w.Warrants c sid (n + k) q := by
  intro k q hq
  rw [List.getElem?_singleton] at hq
  split_ifs at hq with hk
  rw [← Option.some.inj hq, hk]
  exact h

/-- A client starts, with its first connection. -/
theorem Keeps.of_start (hlater : Later w w') {c : ClientProcess} {sid : SessionId}
    (hconn : c.connections = [sid]) (htoken : c.client.token = []) (hwrote : w.wrote sid = []) :
    Keeps w w' c [ClientProcess.login] where
  warrants sid' hsid := by
    have hsocket : c.socket = some sid := by rw [ClientProcess.socket, hconn]; rfl
    obtain rfl := Option.some.inj (hsocket.symm.trans hsid)
    refine warrants_single ⟨?_, ?_⟩
    · rw [hwrote, List.length_nil]
    · rw [hconn, List.head?_cons]
  asked sid' := by
    have hnone : [ClientProcess.login].countP ClientRequest.isMatch = 0 := rfl
    rw [hnone, ite_self, Nat.add_zero]
    exact hlater.countP_readOn sid' _
  identity := .inl ⟨htoken, by rw [hconn]; exact le_rfl⟩

/-- A client comes back, with another connection. -/
theorem Keeps.of_reconnect (hlater : Later w w') {c : ClientProcess} {sid : SessionId}
    (hc : w.Identity c) (htoken : c.client.token ≠ []) (hnew : sid ∉ c.connections)
    (hwrote : w.wrote sid = []) :
    Keeps w w' { c with connections := c.connections ++ [sid] }
      [.reconnect { playerId := c.client.playerId, token := c.client.token }] := by
  obtain ⟨hnone, -⟩ | ⟨sid₀, hhead, hread, x, hx, hid, hxtoken⟩ := hc
  · exact absurd hnone htoken
  · have hhead' : (c.connections ++ [sid]).head? = some sid₀ := by
      rw [List.head?_append, hhead, Option.some_or]
    refine ⟨fun sid' hsid => ?_, fun sid' => ?_, .inr ⟨sid₀, hhead', ?_, x, hlater.issued hx, hid,
      hxtoken⟩⟩
    · have hsocket : sid' = sid :=
        Option.some.inj (hsid.symm.trans (List.getLast?_concat (l := c.connections)))
      refine warrants_single ⟨?_, fun he => hnew ?_, x, hlater.issued hx, ?_, hxtoken⟩
      · rw [hsocket, hwrote, List.length_nil]
      · rw [← hsocket, ← Option.some.inj (hhead'.symm.trans he)]
        exact List.mem_of_mem_head? hhead
      · rw [← hid, toInt_toInt]
    · rw [show [ClientRequest.reconnect _].countP ClientRequest.isMatch = 0 from rfl, ite_self,
        Nat.add_zero]
      exact hlater.countP_readOn sid' _
    · exact hread.trans_le (hlater.countP_readOn sid₀ _)

/-- The identity in a LoginResp that was sent. -/
theorem mem_issued {sid : SessionId} {resp : LoginResp} (hresp : Response.loginResp resp ∈ w.sentTo sid)
    (hcode : resp.code = 0) : (sid, resp.playerId, resp.token) ∈ w.server.server.issued := by
  obtain ⟨y, hy, heq⟩ := List.mem_map.1 hresp
  obtain ⟨hmem, hsid⟩ := List.mem_filter.1 hy
  refine List.mem_filterMap.2 ⟨y, hmem, ?_⟩
  rw [heq, of_decide_eq_true hsid, Response.issued, if_pos hcode]
  rfl

/-- A client learns who it is, on its only connection, and asks to be matched. -/
theorem Keeps.of_loginResp {i : ℕ} {sid : SessionId} {resp : LoginResp} {now : Time}
    (hread : (w.sentTo sid)[(w.reads sid).length]? = some (.loginResp resp)) (hcode : resp.code = 0)
    {c : ClientProcess} (hconn : c.connections = [sid]) :
    Keeps w (w.act i (.read sid (.loginResp resp)) now) (c.handleMessage now (.loginResp resp)).1
      (c.handleMessage now (.loginResp resp)).2 := by
  have hlater := later_act w i (.read sid (.loginResp resp)) now
  have hissued := mem_issued (List.mem_of_getElem? hread) hcode
  have hcount : ((w.act i (.read sid (.loginResp resp)) now).readOn sid).countP Response.issues =
      (w.readOn sid).countP Response.issues + 1 := by
    have hone : Response.issues (.loginResp resp) = true := by
      rw [Response.issues, Response.issued, if_pos hcode]
      rfl
    rw [readOn_act_read hread, List.countP_append, List.countP_cons_of_pos hone, List.countP_nil]
  have hstep : c.handleMessage now (.loginResp resp) =
      ({ c with client := { c.client with
          playerId := toInt resp.playerId
          token := resp.token } },
        if toInt resp.playerId ≤ 0 then [] else [.match { playerId := toInt resp.playerId }]) := by
    simp only [ClientProcess.handleMessage, ClientSimulator.handleMessage, if_pos hcode,
      ClientSimulator.match]
    split_ifs <;> rfl
  rw [hstep]
  refine ⟨fun sid' hsid => ?_, fun sid' => ?_, .inr ⟨sid, ?_, ?_, _, hlater.issued hissued, rfl, rfl⟩⟩
  · have hsocket : c.socket = some sid := by rw [ClientProcess.socket, hconn]; rfl
    obtain rfl := Option.some.inj (hsocket.symm.trans hsid)
    dsimp only
    split_ifs
    · exact fun k q hq => by cases hq
    · exact warrants_single ⟨_, hlater.issued hissued, rfl, (toInt_toInt _).symm⟩
  · have hsocket : c.socket = some sid := by rw [ClientProcess.socket, hconn]; rfl
    show _ + (if c.socket = some sid' then _ else 0) ≤ _
    rw [hsocket]
    by_cases hsid : sid = sid'
    · subst hsid
      rw [if_pos rfl, hcount]
      refine Nat.add_le_add_left ?_ _
      dsimp only
      split_ifs
      · exact Nat.zero_le _
      · exact le_rfl
    · rw [if_neg fun he => hsid (Option.some.inj he), Nat.add_zero]
      exact hlater.countP_readOn sid' _
  · rw [hconn, List.head?_cons]
  · rw [hcount]
    exact Nat.succ_pos _

namespace Honest

/-- Nothing was written on a connection that is not there yet. -/
theorem wrote_nil (h : Honest tr w) {sid : SessionId} (hsid : sid ∉ w.connected) :
    w.wrote sid = [] := by
  by_contra hne
  obtain ⟨i, hi⟩ := h.owned hne
  exact hsid (h.connected i sid hi)

/-- **What a client writes it is entitled to.** -/
theorem keeps (h : Honest tr w) (hrun : GameServer.server.Run tr w.server.server) {i : ℕ}
    {e : ClientEvent} {now : Time} (hen : (w.client i).Enabled now e)
    (hnew : ∀ sid ∈ e.connects (w.client i), sid ∉ w.connected)
    (hread : ∀ sid msg, e = .read sid msg → (w.sentTo sid)[(w.reads sid).length]? = some msg) :
    Keeps w (w.act i e now) ((w.client i).step now e).1 ((w.client i).step now e).2 := by
  have hlater := later_act w i e now
  have hconn := connections_step hen
  have hid := h.identity i
  cases e with
  | start sid playerId roomId chat =>
    rw [show (w.client i).connections = [] from hen] at hconn
    refine .of_start hlater hconn ?_ (h.wrote_nil (hnew sid rfl))
    cases chat <;> rfl
  | testReconnect sid playerId roomId chat =>
    rw [show (w.client i).connections = [] from hen] at hconn
    exact .of_start hlater hconn rfl (h.wrote_nil (hnew sid rfl))
  | heartbeat | rank =>
    exact .of_free hlater rfl rfl rfl (List.forall_mem_singleton.2 rfl) hid
  | chat =>
    refine .of_free hlater (hconn.trans (List.append_nil _)) ?_ ?_ (List.forall_mem_singleton.2 rfl) hid
    · simp only [ClientProcess.step, ClientProcess.durationChat]
      split_ifs <;> rfl
    · simp only [ClientProcess.step, ClientProcess.durationChat]
      split_ifs <;> rfl
  | stopHeartbeat => exact .of_free hlater rfl rfl rfl (fun q hq => absurd hq List.not_mem_nil) hid
  | reconnect sid =>
    simp only [ClientEvent.connects] at hnew
    simp only [ClientProcess.step, ClientProcess.reconnect]
    split_ifs with hnobody
    · exact .of_free hlater rfl rfl rfl (fun q hq => absurd hq List.not_mem_nil) hid
    · rw [if_neg hnobody] at hnew
      have hsid := hnew sid rfl
      exact .of_reconnect (c := { w.client i with reconnectTimer := none }) hlater hid
        (not_or.1 hnobody).2 (fun hmem => hsid (h.connected i sid hmem)) (h.wrote_nil hsid)
  | read sid msg =>
    have hmsg := hread sid msg rfl
    have hmem : sid ∈ (w.client i).connections := hen
    cases msg with
    | loginResp resp =>
      by_cases hcode : resp.code = 0
      · have hissues : Response.issues (.loginResp resp) = true := by
          rw [Response.issues, Response.issued, if_pos hcode]
          rfl
        exact .of_loginResp hmsg hcode (h.identity_of_read hrun hmsg hissues hmem)
      · have hstep : (w.client i).handleMessage now (.loginResp resp) = (w.client i, []) := by
          simp only [ClientProcess.handleMessage, ClientSimulator.handleMessage, if_neg hcode]
          rfl
        rw [ClientProcess.step, hstep]
        exact .of_free hlater rfl rfl rfl (fun q hq => absurd hq List.not_mem_nil) hid
    | roomCreatedNotify resp =>
      exact .of_free hlater rfl rfl rfl (List.forall_mem_singleton.2 rfl) hid
    | reconnectResp resp =>
      simp only [ClientProcess.step, ClientProcess.handleMessage]
      split_ifs
      · exact .of_free hlater rfl rfl rfl (fun q hq => absurd hq List.not_mem_nil) hid
      · exact .of_free hlater rfl rfl rfl (fun q hq => absurd hq List.not_mem_nil) hid
    | matchResp | chatNotify | chatResp | heartbeatResp | rankingResp =>
      exact .of_free hlater rfl rfl rfl (fun q hq => absurd hq List.not_mem_nil) hid

theorem init (start : Time) : Honest [] (.start start) where
  connected _ _ hsid := absurd hsid List.not_mem_nil
  owner hsid := absurd hsid List.not_mem_nil
  owned hne := absurd rfl hne
  warrants _ _ hsid := absurd hsid List.not_mem_nil
  asked _ := le_rfl
  identity _ := .inl ⟨rfl, Nat.zero_le _⟩
  bounded _ := le_rfl
  served _ := rfl

/-- A connection has one owner, also the new one. -/
theorem owner_act (h : Honest tr w) {i : ℕ} {e : ClientEvent} {now : Time}
    (hen : (w.client i).Enabled now e) (hnew : ∀ sid ∈ e.connects (w.client i), sid ∉ w.connected)
    {j j' : ℕ} {sid : SessionId} (hj : sid ∈ ((w.act i e now).client j).connections)
    (hj' : sid ∈ ((w.act i e now).client j').connections) : j = j' := by
  rcases mem_connections_act hen hj with hold | ⟨hi, hs⟩ <;>
    rcases mem_connections_act hen hj' with hold' | ⟨hi', hs'⟩
  · exact h.owner hold hold'
  · exact absurd (h.connected j sid hold) (hnew sid hs')
  · exact absurd (h.connected j' sid hold') (hnew sid hs)
  · exact hi.trans hi'.symm

/-- A client does something. -/
theorem act (h : Honest tr w) (hrun : GameServer.server.Run tr w.server.server) {i : ℕ}
    {e : ClientEvent} {now : Time} (hen : (w.client i).Enabled now e)
    (hnew : ∀ sid ∈ e.connects (w.client i), sid ∉ w.connected)
    (hread : ∀ sid msg, e = .read sid msg → (w.sentTo sid)[(w.reads sid).length]? = some msg) :
    Honest tr (w.act i e now) := by
  have hlater := later_act w i e now
  have hkeeps := h.keeps hrun hen hnew hread
  have hwrote : ∀ sid, (w.act i e now).wrote sid = w.wrote sid ++
      if ((w.client i).step now e).1.socket = some sid then
        ((w.client i).step now e).2.map (Prod.mk now) else [] := fun sid => rfl
  have hsocket : ∀ {sid}, ((w.client i).step now e).1.socket = some sid →
      sid ∈ ((w.act i e now).client i).connections := fun hs => by
    rw [client_act_self]
    exact List.mem_of_getLast? hs
  refine ⟨fun j sid hsid => ?_, h.owner_act hen hnew, fun {sid} hne => ?_,
    fun j sid hsid k x hx => ?_, fun sid => ?_, fun j => ?_, fun sid => ?_, fun sid => ?_⟩
  · rcases mem_connections_act hen hsid with hj | ⟨-, hs⟩
    · exact List.mem_append_left _ (h.connected j sid hj)
    · exact List.mem_append_right _ (Option.mem_toList.2 hs)
  · by_cases hs : ((w.client i).step now e).1.socket = some sid
    · exact ⟨i, hsocket hs⟩
    · rw [hwrote, if_neg hs, List.append_nil] at hne
      obtain ⟨j, hj⟩ := h.owned hne
      exact ⟨j, (connections_grow hen j).subset hj⟩
  · rw [hwrote] at hx
    by_cases hk : k < (w.wrote sid).length
    · -- An old request, of the same client.
      rw [List.getElem?_append_left hk] at hx
      obtain ⟨j', hj', hwarrant⟩ := h.warranted hx
      obtain rfl := h.owner_act hen hnew hsid ((connections_grow hen j').subset hj')
      exact hlater.warrants (head?_extend (connections_grow hen j) (List.ne_nil_of_mem hj'))
        hwarrant
    · rw [List.getElem?_append_right (not_lt.1 hk)] at hx
      split_ifs at hx with hs
      · obtain rfl := h.owner_act hen hnew hsid (hsocket hs)
        rw [List.getElem?_map] at hx
        obtain ⟨q, hq, rfl⟩ := Option.map_eq_some_iff.1 hx
        have hwarrant := hkeeps.warrants sid hs _ q hq
        rw [Nat.add_sub_cancel' (not_lt.1 hk)] at hwarrant
        rw [client_act_self]
        exact hwarrant
      · cases hx
  · refine le_trans ?_ (hkeeps.asked sid)
    rw [hwrote, List.countP_append]
    refine Nat.add_le_add (h.asked sid) ?_
    split_ifs
    · rw [List.countP_map]
      exact le_rfl
    · exact Nat.zero_le _
  · by_cases hj : j = i
    · rw [hj, client_act_self]
      exact hkeeps.identity
    · rw [client_act_of_ne _ hj]
      exact hlater.identity rfl rfl rfl (h.identity j)
  · rw [hwrote, List.length_append]
    exact (h.bounded sid).trans (Nat.le_add_right ..)
  · have hhandled : (w.act i e now).handled = w.handled := rfl
    rw [hwrote, hhandled, List.take_append_of_le_length (h.bounded sid)]
    exact h.served sid

/-- The server does something else than to handle a request. -/
theorem server {tr' : History} (h : Honest tr w) {t' : TimedServer} {clock : Time}
    (hlater : Later w { w with server := t', clock := clock })
    (hquiet : ∀ sid, tr'.requestsOn sid = tr.requestsOn sid) :
    Honest tr' { w with server := t', clock := clock } where
  connected := h.connected
  owner := h.owner
  owned := h.owned
  warrants i sid hsid k x hx := hlater.warrants rfl (h.warrants i sid hsid k x hx)
  asked sid := (h.asked sid).trans (hlater.countP_readOn sid _)
  identity i := hlater.identity rfl rfl rfl (h.identity i)
  bounded := h.bounded
  served sid := by
    rw [hquiet]
    exact h.served sid

/-- The server handles the next request of a connection. -/
theorem serve (h : Honest tr w) {sid : SessionId} {req : Request} {now : Instant} {t' : TimedServer}
    {x : Time × ClientRequest} (hx : (w.wrote sid)[w.handled sid]? = some x)
    (hreq : req.written = some x.2)
    (hlater : Later w { w with
      server := t'
      clock := now.steady
      handled := Function.update w.handled sid (w.handled sid + 1) }) :
    Honest ((w.server.server, .request sid req now) :: tr) { w with
      server := t'
      clock := now.steady
      handled := Function.update w.handled sid (w.handled sid + 1) } where
  connected := h.connected
  owner := h.owner
  owned := h.owned
  warrants i sid' hsid k y hy := hlater.warrants rfl (h.warrants i sid' hsid k y hy)
  asked sid' := (h.asked sid').trans (hlater.countP_readOn sid' _)
  identity i := hlater.identity rfl rfl rfl (h.identity i)
  bounded sid' := by
    show Function.update w.handled sid (w.handled sid + 1) sid' ≤ _
    by_cases hs : sid' = sid
    · subst hs
      rw [Function.update_self]
      exact (List.getElem?_eq_some_iff.1 hx).1
    · rw [Function.update_of_ne hs]
      exact h.bounded sid'
  served sid' := by
    show _ = ((w.wrote sid').take (Function.update w.handled sid (w.handled sid + 1) sid')).map _
    rw [requestsOn_cons, List.map_append, h.served]
    by_cases hs : sid' = sid
    · subst hs
      rw [Function.update_self, List.take_add_one, hx, List.map_append]
      simp [Event.requestOn, hreq]
    · rw [Function.update_of_ne hs]
      simp [Event.requestOn, Ne.symm hs]

end Honest
end Deployment

namespace TimedServer

variable {start : Time} {t t' : TimedServer} {e : TimedEvent}

/-- What was sent stays sent. -/
theorem sent_prefix (h : (timed start).step t e t') : t.server.sent <+: t'.server.sent := by
  cases stepped_of_step h with
  | handle _ _ hs =>
    obtain ⟨replies, notifications, hsends⟩ := Server.sends_of_step hs.2
    exact ⟨_, hsends.sent_eq.symm⟩
  | timeoutCheck _ _ hs => exact (Server.sent_closeAll hs).symm ▸ List.prefix_rfl
  | reconnectTimeoutCheck _ hs =>
    obtain ⟨replies, notifications, hsends⟩ := Server.sends_of_step hs.2
    exact ⟨_, hsends.sent_eq.symm⟩

/-- Other events than requests handle none. -/
theorem not_request_of_served (t : TimedServer)
    (hreq : ∀ sid req now, e ≠ .handle (.request sid req now)) {x : Server × Event}
    (hx : x ∈ t.served e) (sid : SessionId) (req : Request) (now : Instant) :
    x.2 ≠ .request sid req now := by
  rintro he
  cases e with
  | handle e =>
    obtain rfl := List.mem_singleton.1 hx
    exact hreq sid req now (congrArg TimedEvent.handle he)
  | timeoutCheck order now' =>
    obtain ⟨sid', -, hclose⟩ := Server.mem_closes hx
    cases hclose.symm.trans he
  | reconnectTimeoutCheck order now' =>
    obtain rfl := List.mem_singleton.1 hx
    cases he

end TimedServer

namespace Deployment

variable {start : Time} {tr : List (Deployment × DeploymentEvent)} {w : Deployment}

/-- A history in which nothing is requested. -/
theorem requestsOn_eq_nil {tr : History}
    (h : ∀ x ∈ tr, ∀ sid req now, x.2 ≠ .request sid req now) (sid : SessionId) :
    tr.requestsOn sid = [] := by
  refine List.filterMap_eq_nil_iff.2 fun x hx => ?_
  have hno := h x (List.mem_reverse.1 hx)
  cases he : x.2 with
  | request sid' req now => exact absurd he (hno sid' req now)
  | accept | close | release | sweep => rfl

/-- **Every client is honest**, in every run. -/
theorem Honest.of_run (h : (deployment start).Run tr w) : Honest (history tr) w := by
  induction h with
  | nil => exact .init start
  | @cons tr w w' e hrun hs ih =>
    have hserver := server_run hrun
    rw [history_cons]
    cases stepped_of_step hs with
    | client _ hen hnew hread => exact ih.act hserver hen hnew hread
    | serve _ ht hx hreq =>
      exact ih.serve hx hreq ⟨TimedServer.sent_prefix ht, fun sid => le_rfl⟩
    | server _ ht hnone _ =>
      refine ih.server ⟨TimedServer.sent_prefix ht, fun sid => le_rfl⟩ fun sid => ?_
      rw [requestsOn_append]
      refine (congrArg _ (requestsOn_eq_nil (fun x hx => ?_) sid)).trans (List.append_nil _)
      exact TimedServer.not_request_of_served _ hnone hx

/-! ### Conforming -/

end Deployment

namespace Server

variable {tr : History} {s : Server}

/-- An id is issued once. -/
theorem nodup_issued (h : server.Run tr s) (hl : tr.logins < 2 ^ 31 - 10000) :
    (s.issued.map fun x => x.2.1).Nodup := by
  induction h with
  | nil => exact List.nodup_nil
  | @cons tr s s' e hrun hs ih =>
    have hl' : History.logins tr < 2 ^ 31 - 10000 :=
      (logins_le_of_suffix (List.suffix_cons ..)).trans_lt hl
    rw [step_issued hs, List.map_append]
    cases hact : s.act e with
    | login sid =>
      refine (ih hl').append (List.nodup_singleton _) fun p hp hnew => ?_
      obtain ⟨x, hx, rfl⟩ := List.mem_map.1 hp
      exact (issued_range hrun hl' x hx).2.ne (List.mem_singleton.1 hnew)
    | _ => simpa [Act.issues] using ih hl'

/-- The ids issued are values of `int`. -/
theorem toInt_issued (h : server.Run tr s) (hl : tr.logins < 2 ^ 31 - 10000)
    {x : SessionId × PlayerId × Bytes} (hx : x ∈ s.issued) : toInt x.2.1 = x.2.1 := by
  have hnext := nextPlayerId_eq h hl
  obtain ⟨hlo, hhi⟩ := issued_range h hl x hx
  have hmax : s.nextPlayerId < 2 ^ 31 := by omega
  exact toInt_of_lt (le_trans (by norm_num) hlo) (lt_trans hhi hmax)

theorem eq_of_issued (h : server.Run tr s) (hl : tr.logins < 2 ^ 31 - 10000)
    {x y : SessionId × PlayerId × Bytes} (hx : x ∈ s.issued) (hy : y ∈ s.issued)
    (heq : toInt x.2.1 = toInt y.2.1) : x = y := by
  rw [toInt_issued h hl hx, toInt_issued h hl hy] at heq
  exact List.inj_on_of_nodup_map (nodup_issued h hl) hx hy heq

end Server

namespace Deployment

variable {start : Time} {tr : List (Deployment × DeploymentEvent)} {w : Deployment}

/-- A MatchReq is the only one on its connection. -/
theorem Honest.asks_once {tr : History} (h : Honest tr w)
    (hrun : GameServer.server.Run tr w.server.server) {sid : SessionId} {k n : ℕ}
    {x y : Time × ClientRequest} (hk : k < n) (hx : (w.wrote sid)[k]? = some x)
    (hy : (w.wrote sid)[n]? = some y) (hmx : x.2.isMatch = true) (hmy : y.2.isMatch = true) :
    False := by
  have hle : (w.wrote sid).countP (fun x => x.2.isMatch) ≤ 1 :=
    ((h.asked sid).trans (List.take_sublist _ _).countP_le).trans (h.issued_le_one hrun sid)
  have hbefore : 0 < ((w.wrote sid).take n).countP fun x => x.2.isMatch :=
    List.countP_pos_iff.2 ⟨x, List.mem_of_getElem? ((List.getElem?_take_of_lt hk).trans hx), hmx⟩
  have hafter : 0 < ((w.wrote sid).drop n).countP fun x => x.2.isMatch :=
    List.countP_pos_iff.2 ⟨y, List.mem_of_getElem? (i := 0) (List.getElem?_drop.trans hy), hmy⟩
  rw [← List.take_append_drop n (w.wrote sid), List.countP_append] at hle
  omega

/-- An honest request is one that the simulator sends. -/
theorem Honest.sends {tr : History} (h : Honest tr w)
    (hrun : GameServer.server.Run tr w.server.server) (hl : tr.logins < 2 ^ 31 - 10000)
    {sid : SessionId} {req : Request} {x : Time × ClientRequest} (now : Instant)
    (hx : (w.wrote sid)[w.handled sid]? = some x) (hreq : req.written = some x.2) :
    Sends tr w.server.server (.request sid req now) := by
  obtain ⟨i, hi, hwarrant⟩ := h.warranted hx
  -- The first request on a connection finds nothing handled on it.
  have hfirst : w.handled sid = 0 → ∀ y ∈ tr, ¬ y.2.introduces sid := fun hzero y hy hintro => by
    obtain ⟨req', now', hy'⟩ := Event.request_of_introduces hintro
    have hmem : (y.1, req') ∈ tr.requestsOn sid := by
      refine List.mem_filterMap.2 ⟨y, List.mem_reverse.2 hy, ?_⟩
      rw [hy', Event.requestOn, if_pos rfl]
      rfl
    obtain ⟨k, hk, -⟩ := h.exists_wrote hmem
    omega
  cases req with
  | login req =>
    rw [← Option.some.inj hreq] at hwarrant
    exact hfirst hwarrant.1
  | reconnect req =>
    rw [← Option.some.inj hreq] at hwarrant
    obtain ⟨hzero, -, y, hy, hid, htoken⟩ := hwarrant
    rw [Server.toInt_issued hrun hl hy] at hid
    exact ⟨hfirst hzero, y, hy, Prod.ext hid htoken⟩
  | «match» req =>
    have hq : x.2 = .match req := (Option.some.inj hreq).symm
    rw [hq] at hwarrant
    obtain ⟨y, hy, hsid, hid⟩ := hwarrant
    refine ⟨fun z hz hmatch => ?_, y, hy, hsid, (Server.toInt_issued hrun hl hy) ▸ hid⟩
    -- Another MatchReq for the id was written on the connection it was issued on, which is this one.
    obtain ⟨s, e⟩ := z
    cases e with
    | request sid' req' now' =>
      cases req' with
      | «match» req' =>
        have hmem : (s, Request.match req') ∈ tr.requestsOn sid' :=
          List.mem_filterMap.2 ⟨_, List.mem_reverse.2 hz, by rw [Event.requestOn, if_pos rfl]; rfl⟩
        obtain ⟨k, hk, v, hv, hwritten⟩ := h.exists_wrote hmem
        have hv' : v.2 = .match req' := (Option.some.inj hwritten).symm
        obtain ⟨j, -, hwarrant'⟩ := h.warranted hv
        rw [hv'] at hwarrant'
        obtain ⟨y', hy', hsid', hid'⟩ := hwarrant'
        have hp : toInt req'.playerId = toInt req.playerId := of_decide_eq_true hmatch
        obtain rfl := Server.eq_of_issued hrun hl hy' hy (by rw [hid', hid, hp])
        obtain rfl := hsid'.symm.trans hsid
        exact h.asks_once hrun hk hv hx (by rw [hv']; rfl) (by rw [hq]; rfl)
      | _ => cases hmatch
    | _ => cases hmatch
  | chat req | heartbeat req | ranking req players => trivial
  | unregistered msgId => cases hreq

/-- What is neither a request nor out of order for `Conforms` is a close, a release, a sweep or an
accept. -/
theorem conforms_append {tr tr' : History}
    (h : ∀ x ∈ tr', ∀ sid req now, x.2 ≠ .request sid req now) :
    Conforms (tr' ++ tr) ↔ Conforms tr := by
  induction tr' with
  | nil => exact Iff.rfl
  | cons x tr' ih =>
    rw [List.forall_mem_cons] at h
    obtain ⟨s, e⟩ := x
    refine Iff.trans ?_ (ih h.2)
    cases e with
    | request sid req now => exact absurd rfl (h.1 sid req now)
    | accept | close | release | sweep => exact ⟨fun hc => hc.2.2, fun hc => ⟨trivial, trivial, hc⟩⟩

/-- Other events than requests come on open sessions. -/
theorem onOpen_of_not_request {s : Server} {e : Event} (h : ∀ sid req now, e ≠ .request sid req now) :
    e.onOpen s := by
  cases e with
  | request sid req now => exact absurd rfl (h sid req now)
  | accept | close | release | sweep => trivial

end Deployment

open Deployment in
/-- **Simulators conform.**  The run of the server in a run of simulators, as long as the counter of
the logins does not wrap around, is one of clients that follow the simulator exactly when no request is
handled on a session that was closed. -/
theorem deployment_conforms {start : Time} {tr : List (Deployment × DeploymentEvent)} {w : Deployment}
    (h : (deployment start).Run tr w) (hl : (history tr).logins < 2 ^ 31 - 10000) :
    Conforms (history tr) ↔ ∀ x ∈ history tr, x.2.onOpen x.1 := by
  induction h with
  | nil => exact ⟨fun _ x hx => absurd hx List.not_mem_nil, fun _ => trivial⟩
  | @cons tr w w' e hrun hs ih =>
    rw [history_cons] at hl ⊢
    have hl' : (history tr).logins < 2 ^ 31 - 10000 :=
      (logins_le_of_suffix (List.suffix_append _ _)).trans_lt hl
    have ih := ih hl'
    have hquiet {tr' : History} (hno : ∀ x ∈ tr', ∀ sid req now, x.2 ≠ .request sid req now) :
        Conforms (tr' ++ history tr) ↔ ∀ x ∈ tr' ++ history tr, x.2.onOpen x.1 := by
      rw [conforms_append hno, ih, List.forall_mem_append]
      exact ⟨fun hopen => ⟨fun x hx => onOpen_of_not_request (hno x hx), hopen⟩, fun hopen => hopen.2⟩
    cases stepped_of_step hs with
    | client => exact ih
    | @serve sid req now t' x _ ht hx hreq =>
      have hsends := (Honest.of_run hrun).sends (server_run hrun) hl' now hx hreq
      show Conforms ((w.server.server, .request sid req now) :: history tr) ↔
        ∀ y ∈ (w.server.server, Event.request sid req now) :: history tr, y.2.onOpen y.1
      rw [List.forall_mem_cons, ← ih]
      exact ⟨fun hc => ⟨hc.1, hc.2.2⟩, fun hc => ⟨hc.1, hsends, hc.2⟩⟩
    | server _ ht hnone _ => exact hquiet fun x hx => TimedServer.not_request_of_served _ hnone hx

/-- Two simulators that log in and are matched. -/
theorem deployment_conforms_pair : ∃ tr w, (deployment 0).Run tr w ∧
    (Deployment.history tr).roomsCreated = 1 ∧ Conforms (Deployment.history tr) := by
  obtain ⟨tr, w, h, hrooms, hl, hopen⟩ := Deployment.exists_run 0
    (Q := fun tr _ => (Deployment.history tr).roomsCreated = 1 ∧
      (Deployment.history tr).logins < 2 ^ 31 - 10000 ∧
      ∀ x ∈ Deployment.history tr, x.2.onOpen x.1)
    [.client 0 (.start 0 0 0 false) 0, .client 1 (.start 1 0 0 false) 0,
      .server (.handle (.accept 0 {})), .server (.handle (.accept 1 {})),
      .serve 0 (.login { username := ascii "player" }) {},
      .serve 1 (.login { username := ascii "player" }) {},
      .client 0 (.read 0 (.loginResp
        { playerId := 10000, message := ascii "login_success", token := ascii "token_10000" })) 0,
      .client 1 (.read 1 (.loginResp
        { playerId := 10001, message := ascii "login_success", token := ascii "token_10001" })) 0,
      .serve 0 (.match { playerId := 10000 }) {}, .serve 1 (.match { playerId := 10001 }) {}]
    (by decide +kernel)
  exact ⟨tr, w, h, hrooms, (deployment_conforms h hl).2 hopen⟩

end GameServer
