/-
# Heartbeats

A client whose heartbeats are on writes one every 5 seconds, and the idle check closes a session on
which nothing was handled for 16 seconds.  The beats of a session are its last activity and the
requests that are on their way to it.  They are `Spaced` (`Fed.of_run`), so the session stays open as
long as the handlers of the timer are late, and the requests on their way, for less than 11 seconds
together (`heartbeats_keep`).

A heartbeat carries the round trip time that its client has measured last.  It goes through the
message and the reply to it, and what the server records is the time between the writing of one
heartbeat and the reading of its reply (`rtts_measured`).
-/

import GameServer.HeartbeatTotals
import GameServer.Simulators

namespace GameServer

open Periodic

/-- The time an event comes at, if it reads a clock. -/
def DeploymentEvent.time : DeploymentEvent → Option Time
  | .client _ _ now => some now
  | .serve _ _ now => some now.steady
  | .server e => e.readsClock

/-- The server closes a session because reading from its socket or writing to it fails. -/
def DeploymentEvent.breaks (sid : SessionId) : DeploymentEvent → Bool
  | .server (.handle (.close sid' _)) => sid' = sid
  | _ => false

/-- The time of the activity on a session, if the event is that. -/
def TimedEvent.activityOn (sid : SessionId) : TimedEvent → Option Time
  | .handle e => e.activityOn sid
  | _ => none

namespace Deployment

/-- The requests written on a connection that are not handled yet. -/
def unhandled (w : Deployment) (sid : SessionId) : List (Time × ClientRequest) :=
  (w.wrote sid).drop (w.handled sid)

/-- The last activity on a session, and the times of the requests that are on their way to it. -/
def beats (w : Deployment) (sid : SessionId) : List Time :=
  (w.server.server.lastActive.lookup sid).toList ++ (w.unhandled sid).map Prod.fst

/-- The client sends heartbeats, on the only connection it has made. -/
structure Beats (w : Deployment) (i : ℕ) (sid : SessionId) : Prop where
  enabled : (w.client i).heartBeatEnable = true
  connections : (w.client i).connections = [sid]

/-- An event comes when the heartbeat timer of the client is due for no more than `late`, and the
requests of the client to an open session are on their way for no more than `delay`. -/
structure Timely (late delay : Time) (i : ℕ) (w : Deployment) (e : DeploymentEvent) : Prop where
  timer : ∀ now ∈ e.time, ∀ due ∈ (w.client i).timer, now ≤ due + late
  handled : ∀ now ∈ e.time, ∀ sid ∈ (w.client i).connections, w.server.server.core.Open sid →
    ∀ x ∈ w.unhandled sid, now ≤ x.1 + delay

instance (late delay : Time) (i : ℕ) (w : Deployment) (e : DeploymentEvent) :
    Decidable (w.Timely late delay i e) :=
  decidable_of_iff ((∀ now ∈ e.time, ∀ due ∈ (w.client i).timer, now ≤ due + late) ∧
      ∀ now ∈ e.time, ∀ sid ∈ (w.client i).connections, w.server.server.core.Open sid →
        ∀ x ∈ w.unhandled sid, now ≤ x.1 + delay)
    ⟨fun ⟨ht, hh⟩ => ⟨ht, hh⟩, fun h => ⟨h.timer, h.handled⟩⟩

/-- A client that sends heartbeats has its timer set, and beats with it. -/
def Fed (late : Time) (w : Deployment) (i : ℕ) (sid : SessionId) : Prop :=
  ∃ due ∈ (w.client i).timer, Spaced (5 * 10 ^ 9) late due (w.beats sid)

/-- What was written and handled is in the past, and on connections that were made. -/
structure Dated (w : Deployment) : Prop where
  wrote : ∀ sid, ∀ x ∈ w.wrote sid, x.1 ≤ w.clock
  active : ∀ sid, ∀ since ∈ w.server.server.lastActive.lookup sid,
    since ≤ w.clock ∧ sid ∈ w.connected

end Deployment

namespace TimedServer

variable {start : Time} {tr : History} {t t' : TimedServer} {e : TimedEvent}

theorem readsClock_of_activityOn {sid : SessionId} {since : Time} (h : e.activityOn sid = some since) :
    e.readsClock = some since := by
  cases e with
  | handle e => exact Event.time_of_activityOn h
  | timeoutCheck | reconnectTimeoutCheck => cases h

/-- What is activity on a session. -/
theorem of_activityOn {sid : SessionId} {since : Time} (h : e.activityOn sid = some since) :
    (∃ now, e = .handle (.accept sid now)) ∨ ∃ req now, e = .handle (.request sid req now) := by
  cases e with
  | handle e =>
    cases e with
    | accept sid' now =>
      simp only [TimedEvent.activityOn, Event.activityOn] at h
      split_ifs at h with hsid
      exact .inl ⟨now, hsid ▸ rfl⟩
    | request sid' req now =>
      simp only [TimedEvent.activityOn, Event.activityOn] at h
      split_ifs at h with hsid
      exact .inr ⟨req, now, hsid ▸ rfl⟩
    | close | release | sweep => cases h
  | timeoutCheck | reconnectTimeoutCheck => cases h

theorem of_activityOn_request {sid sid' : SessionId} {req : Request} {now : Instant} {since : Time}
    (h : TimedEvent.activityOn sid' (.handle (.request sid req now)) = some since) :
    sid = sid' ∧ now.steady = since := by
  simp only [TimedEvent.activityOn, Event.activityOn] at h
  split_ifs at h with hsid
  exact ⟨hsid.symm, Option.some.inj h⟩

/-- The checks are no activity. -/
theorem lastActive_step (hrun : GameServer.server.Run tr t.server) (h : (timed start).step t e t')
    (sid : SessionId) :
    t'.server.lastActive.lookup sid = (e.activityOn sid).or (t.server.lastActive.lookup sid) := by
  cases stepped_of_step h with
  | handle _ _ hs => exact Server.lastActive_step hs sid
  | @timeoutCheck order now s' _ horder hs =>
    have halive := fun sid hsid => (alive_of_idle hrun horder now sid hsid).2
    rw [(Server.closeAll_frame halive hs).1]
    rfl
  | reconnectTimeoutCheck _ hs => exact Server.lastActive_step hs sid

/-- What closes a session: a close event, or the check. -/
theorem closed_step (hrun : GameServer.server.Run tr t.server) (h : (timed start).step t e t')
    {sid : SessionId} (hclosed : t'.server.core.closedFlag sid = some true) :
    t.server.core.closedFlag sid = some true ∨ (∃ now, e = .handle (.close sid now)) ∨
      ∃ order now, e = .timeoutCheck order now ∧ sid ∈ t.server.connectionManager.sessions ∧
        t.server.idle now.steady 15 sid = true := by
  cases stepped_of_step h with
  | @handle e s' _ _ hs =>
    rw [Server.closedFlag_step hs] at hclosed
    cases e with
    | close sid' now =>
      rw [Event.setsClosed] at hclosed
      split_ifs at hclosed with hsid
      · exact .inr (.inl ⟨now, hsid ▸ rfl⟩)
      · exact .inl hclosed
    | accept sid' now =>
      rw [Event.setsClosed] at hclosed
      split_ifs at hclosed
      · cases hclosed
      · exact .inl hclosed
    | request | release | sweep => exact .inl hclosed
  | @timeoutCheck order now s' _ horder hs =>
    have hidle := alive_of_idle hrun horder now
    rw [(Server.closeAll_frame (fun sid hsid => (hidle sid hsid).2) hs).2] at hclosed
    split_ifs at hclosed with hsid
    · exact .inr (.inr ⟨order, now, rfl, (hidle sid hsid).1, (List.mem_filter.1 hsid).2⟩)
    · exact .inl hclosed
  | reconnectTimeoutCheck _ hs =>
    rw [Server.closedFlag_step hs] at hclosed
    exact .inl hclosed

end TimedServer

namespace Deployment

variable {start late delay : Time} {tr : List (Deployment × DeploymentEvent)} {w w' : Deployment}
  {i : ℕ} {sid : SessionId}

/-! ### The beats -/

namespace Dated

theorem unhandled (h : w.Dated) : ∀ x ∈ w.unhandled sid, x.1 ≤ w.clock := fun x hx =>
  h.wrote sid x (List.mem_of_mem_drop hx)

theorem beats (h : w.Dated) : ∀ t ∈ w.beats sid, t ≤ w.clock := by
  intro t ht
  rcases List.mem_append.1 ht with ht | ht
  · exact (h.active sid t (Option.mem_toList.1 ht)).1
  · obtain ⟨x, hx, rfl⟩ := List.mem_map.1 ht
    exact h.unhandled x hx

/-- Nothing beats on a connection that is not there yet. -/
theorem lastActive_eq_none (h : w.Dated) (hsid : sid ∉ w.connected) :
    w.server.server.lastActive.lookup sid = none :=
  Option.eq_none_iff_forall_not_mem.2 fun since hsince => hsid (h.active sid since hsince).2

/-- A client does something. -/
theorem act (h : w.Dated) {e : ClientEvent} {now : Time} (hclock : w.clock ≤ now) :
    (w.act i e now).Dated where
  wrote sid x hx := by
    rcases List.mem_append.1 hx with hx | hx
    · exact (h.wrote sid x hx).trans hclock
    · split_ifs at hx
      · obtain ⟨q, -, rfl⟩ := List.mem_map.1 hx
        exact le_rfl
      · exact absurd hx List.not_mem_nil
  active sid since hsince := by
    obtain ⟨hle, hsid⟩ := h.active sid since hsince
    exact ⟨hle.trans hclock, List.mem_append_left _ hsid⟩

/-- The server does something. -/
theorem server {tr : History} (h : w.Dated) (hrun : GameServer.server.Run tr w.server.server)
    {e : TimedEvent} (ht : (timed start).step w.server e w'.server) (hclock : w.clock ≤ w'.clock)
    (hactive : ∀ sid, ∀ since ∈ e.activityOn sid, since ≤ w'.clock ∧ sid ∈ w.connected)
    (hwrote : w'.wrote = w.wrote) (hconn : w'.connected = w.connected) : w'.Dated where
  wrote sid x hx := (h.wrote sid x (hwrote ▸ hx)).trans hclock
  active sid since hsince := by
    rw [TimedServer.lastActive_step hrun ht] at hsince
    rw [hconn]
    rcases Option.or_eq_some_iff.1 hsince with hnow | ⟨-, hbefore⟩
    · exact hactive sid since hnow
    · obtain ⟨hle, hsid⟩ := h.active sid since hbefore
      exact ⟨hle.trans hclock, hsid⟩

theorem of_run (h : (deployment start).Run tr w) : w.Dated := by
  induction h with
  | nil => exact ⟨fun _ _ hx => absurd hx List.not_mem_nil, fun _ _ hsince => by cases hsince⟩
  | @cons tr w w' e hrun hs ih =>
    have hserver := server_run hrun
    have hhonest := Honest.of_run hrun
    cases stepped_of_step hs with
    | client hclock _ _ _ => exact ih.act hclock
    | @serve sid req now t' x hclock ht hx _ =>
      refine ih.server hserver ht hclock (fun sid' since hsince => ?_) rfl rfl
      obtain ⟨rfl, rfl⟩ := TimedServer.of_activityOn_request hsince
      obtain ⟨i, hi, -⟩ := hhonest.warranted hx
      exact ⟨le_rfl, hhonest.connected i sid hi⟩
    | @server e t' hclock ht hreq haccept =>
      refine ih.server hserver ht ?_ (fun sid since hsince => ⟨?_, ?_⟩) rfl rfl
      · show w.clock ≤ e.readsClock.getD w.clock
        cases hread : e.readsClock with
        | none => exact le_rfl
        | some time => exact hclock time hread
      · show since ≤ e.readsClock.getD w.clock
        rw [TimedServer.readsClock_of_activityOn hsince]
        exact le_rfl
      · rcases TimedServer.of_activityOn hsince with ⟨now, rfl⟩ | ⟨req, now, rfl⟩
        · exact haccept sid now rfl
        · exact absurd rfl (hreq sid req now)

end Dated

/-- A client writes to a connection. -/
theorem beats_act {tr : History} (h : Honest tr w) {e : ClientEvent} {now : Time} :
    (w.act i e now).beats sid = w.beats sid ++
      if ((w.client i).step now e).1.socket = some sid then
        List.replicate ((w.client i).step now e).2.length now else [] := by
  have hunhandled : (w.act i e now).unhandled sid = w.unhandled sid ++
      if ((w.client i).step now e).1.socket = some sid then
        ((w.client i).step now e).2.map (Prod.mk now) else [] :=
    List.drop_append_of_le_length (h.bounded sid)
  rw [beats, hunhandled, List.map_append, ← List.append_assoc]
  congr 1
  split_ifs
  · rw [List.map_map]
    exact List.map_const' ..
  · rfl

/-- **How a client comes to send heartbeats**: it starts, or it did before, and sets its timer only
when it writes. -/
theorem Beats.of_act {tr : History} (h : Honest tr w)
    (hrun : GameServer.server.Run tr w.server.server) {e : ClientEvent} {now : Time}
    (hen : (w.client i).Enabled now e)
    (hread : ∀ sid msg, e = .read sid msg → (w.sentTo sid)[(w.reads sid).length]? = some msg)
    (hb : (w.act i e now).Beats i sid) :
    (∃ playerId roomId chat, e = .start sid playerId roomId chat) ∨
      w.Beats i sid ∧ (((w.client i).step now e).1.timer = (w.client i).timer ∨
        ((w.client i).step now e).1.timer = some (now + 5 * 10 ^ 9) ∧
          ((w.client i).step now e).2 ≠ []) := by
  obtain ⟨hon, hconn⟩ := hb
  rw [client_act_self] at hon hconn
  have hmade := connections_step hen
  rw [hconn] at hmade
  cases e with
  | start sid' playerId roomId chat =>
    rw [show (w.client i).connections = [] from hen] at hmade
    obtain rfl : sid = sid' := List.singleton_inj.1 hmade
    exact .inl ⟨playerId, roomId, chat, rfl⟩
  | testReconnect => exact absurd hon Bool.false_ne_true
  | stopHeartbeat => exact absurd hon Bool.false_ne_true
  | heartbeat =>
    exact .inr ⟨⟨hon, hconn⟩, .inr ⟨if_pos hon, List.cons_ne_nil _ _⟩⟩
  | chat =>
    right
    simp only [ClientProcess.step, ClientProcess.durationChat] at hon hconn ⊢
    split_ifs at hon hconn ⊢ <;> exact ⟨⟨hon, hconn⟩, .inl rfl⟩
  | rank => exact .inr ⟨⟨hon, hconn⟩, .inl rfl⟩
  | reconnect sid' =>
    right
    simp only [ClientProcess.step, ClientProcess.reconnect] at hon hconn ⊢
    split_ifs at hon hconn ⊢ with hnobody
    · exact ⟨⟨hon, hconn⟩, .inl rfl⟩
    · -- Whoever has somebody to come back as has a connection.
      exfalso
      rcases h.identity i with ⟨hnone, -⟩ | ⟨sid₀, hhead, -⟩
      · exact (not_or.1 hnobody).2 hnone
      · obtain ⟨rest, hrest⟩ := List.head?_eq_some_iff.1 hhead
        have hlen := congrArg List.length hconn
        simp only [hrest, List.length_append, List.length_cons, List.length_nil] at hlen
        omega
  | read sid' msg =>
    right
    replace hmade : [sid] = (w.client i).connections := hmade.trans (List.append_nil _)
    cases msg with
    | reconnectResp resp =>
      simp only [ClientProcess.step, ClientProcess.handleMessage] at hon hconn ⊢
      split_ifs at hon hconn ⊢
      · -- It is answered to nobody on a first connection.
        exfalso
        have hmem : sid' ∈ (w.client i).connections := hen
        obtain ⟨x, -, hans, k, y, hy, hwritten⟩ := h.exists_request hrun
          (List.mem_of_getElem? (hread sid' _ rfl)) rfl
        obtain ⟨s, req⟩ := x
        cases req with
        | reconnect req =>
          have hwarrant := h.warrants i sid' hmem k y hy
          rw [← Option.some.inj hwritten] at hwarrant
          rw [← hmade, List.mem_singleton] at hmem
          refine hwarrant.2.1 ?_
          rw [← hmade, hmem, List.head?_cons]
        | _ => exact hans
      · exact ⟨⟨hon, hconn⟩, .inl rfl⟩
    | _ => exact ⟨⟨hon, hconn⟩, .inl rfl⟩

namespace Fed

/-- The client itself does something. -/
theorem act {tr : History} (hhonest : Honest tr w) (hdated : w.Dated)
    (hrun : GameServer.server.Run tr w.server.server) (hgap : 0 ≤ 5 * 10 ^ 9 + late) {e : ClientEvent}
    {now : Time} (hclock : w.clock ≤ now) (hen : (w.client i).Enabled now e)
    (hnew : ∀ sid ∈ e.connects (w.client i), sid ∉ w.connected)
    (hread : ∀ sid msg, e = .read sid msg → (w.sentTo sid)[(w.reads sid).length]? = some msg)
    (hon : ∀ due ∈ (w.client i).timer, now ≤ due + late) (hb : (w.act i e now).Beats i sid)
    (h : w.Beats i sid → w.Fed late i sid) : (w.act i e now).Fed late i sid := by
  have hsocket : ((w.client i).step now e).1.socket = some sid := by
    rw [ClientProcess.socket, ← client_act_self, hb.connections]
    rfl
  rw [Fed, client_act_self, beats_act hhonest, if_pos hsocket]
  rcases Beats.of_act hhonest hrun hen hread hb with ⟨playerId, roomId, chat, rfl⟩ | ⟨hb, htimer⟩
  · -- The client starts, and writes its LoginReq.
    have hnone : w.beats sid = [] := by
      rw [beats, hdated.lastActive_eq_none (hnew sid rfl), unhandled,
        hhonest.wrote_nil (hnew sid rfl), List.drop_nil]
      rfl
    rw [hnone]
    refine ⟨now + 5 * 10 ^ 9, ?_, .single le_rfl⟩
    cases chat <;> rfl
  · obtain ⟨due, hdue, hspaced⟩ := h hb
    have hnow := hon due hdue
    have hle : due ≤ now + 5 * 10 ^ 9 := hspaced.due_le fun t ht => (hdated.beats t ht).trans hclock
    by_cases hlen : ((w.client i).step now e).2.length = 0
    · have hsame := htimer.resolve_right fun hset => hset.2 (List.eq_nil_of_length_eq_zero hlen)
      rw [hlen, List.replicate_zero, List.append_nil]
      exact ⟨due, hsame ▸ hdue, hspaced⟩
    · rcases htimer with hsame | ⟨hset, -⟩
      · exact ⟨due, hsame ▸ hdue, hspaced.append hgap hnow hle hlen⟩
      · exact ⟨_, hset, hspaced.append hgap hnow le_rfl hlen⟩

/-- The server does something. -/
theorem server {tr : History} (h : w.Fed late i sid) (hdated : w.Dated)
    (hrun : GameServer.server.Run tr w.server.server) (hgap : 0 ≤ 5 * 10 ^ 9 + late) {e : TimedEvent}
    (ht : (timed start).step w.server e w'.server) (hclock : ∀ now ∈ e.activityOn sid, w.clock ≤ now)
    (hclient : w'.client = w.client) (hrest : w'.unhandled sid <:+ w.unhandled sid)
    (hsame : e.activityOn sid = none → w'.unhandled sid = w.unhandled sid) : w'.Fed late i sid := by
  obtain ⟨due, hdue, hspaced⟩ := h
  refine ⟨due, hclient ▸ hdue, ?_⟩
  have hactive := TimedServer.lastActive_step hrun ht sid
  cases hon : e.activityOn sid with
  | none =>
    rw [hon, Option.none_or] at hactive
    rw [beats, hactive, hsame hon]
    exact hspaced
  | some now =>
    rw [hon, Option.some_or] at hactive
    rw [beats, hactive]
    exact hspaced.renew hgap (fun t ht => (hdated.beats t ht).trans (hclock now hon))
      ((hrest.map _).trans (List.suffix_append ..))

/-- **A client that sends heartbeats is fed**, in every run in which nothing is late. -/
theorem of_run (h : (deployment start).Run tr w) (hlate : 0 ≤ late)
    (hon : ∀ x ∈ tr, x.1.Timely late delay i x.2) (hb : w.Beats i sid) : w.Fed late i sid := by
  have hgap : (0 : ℤ) ≤ 5 * 10 ^ 9 + late := by positivity
  induction h with
  | nil => cases hb.connections
  | @cons tr w w' e hrun hs ih =>
    rw [List.forall_mem_cons] at hon
    have hserver := server_run hrun
    have hhonest := Honest.of_run hrun
    have hdated := Dated.of_run hrun
    cases stepped_of_step hs with
    | @client j e now hclock hen hnew hread =>
      by_cases hj : i = j
      · subst hj
        exact .act hhonest hdated hserver hgap hclock hen hnew hread (hon.1.timer now rfl) hb (ih hon.2)
      · have hother := w.client_act_of_ne hj e now
        have hmem : sid ∈ ((w.act j e now).client i).connections :=
          hb.connections ▸ List.mem_cons_self ..
        -- Nobody else has the connection.
        have hsocket : ((w.client j).step now e).1.socket ≠ some sid := fun hs' => by
          rw [← client_act_self] at hs'
          exact hj ((Honest.of_run (hrun.cons hs)).owner hmem (List.mem_of_getLast? hs'))
        rw [Fed, hother, beats_act hhonest, if_neg hsocket, List.append_nil]
        exact ih hon.2 ⟨hother ▸ hb.enabled, hother ▸ hb.connections⟩
    | @serve sid' req now t' x hclock ht hx _ =>
      have hunhandled : (Function.update w.handled sid' (w.handled sid' + 1)) sid =
          if sid = sid' then w.handled sid + 1 else w.handled sid := by
        rw [Function.update_apply]
        split_ifs with hsid
        · rw [hsid]
        · rfl
      refine (ih hon.2 ⟨hb.enabled, hb.connections⟩).server hdated hserver hgap ht
        (fun since hsince => (TimedServer.of_activityOn_request hsince).2 ▸ hclock) rfl ?_ fun hnone => ?_
      · simp only [unhandled, hunhandled]
        split_ifs
        · exact List.drop_suffix_drop_left _ (Nat.le_succ _)
        · exact List.suffix_rfl
      · simp only [unhandled, hunhandled]
        rw [if_neg]
        rintro rfl
        simp only [TimedEvent.activityOn, Event.activityOn, if_true] at hnone
        cases hnone
    | server hclock ht _ _ =>
      exact (ih hon.2 ⟨hb.enabled, hb.connections⟩).server hdated hserver hgap ht
        (fun now hnow => hclock now (TimedServer.readsClock_of_activityOn hnow)) rfl List.suffix_rfl
        fun _ => rfl

/-- The check does not find a session idle that is fed. -/
theorem not_idle {tr : History} (h : w.Fed late i sid) (hrun : GameServer.server.Run tr w.server.server)
    (hdelay : 0 ≤ delay) (hsum : late + delay < 11 * 10 ^ 9) {order : List SessionId} {now : Instant}
    (hon : w.Timely late delay i (.server (.timeoutCheck order now)))
    (hmem : sid ∈ (w.client i).connections) (hopen : w.server.server.core.closedFlag sid ≠ some true)
    (hconn : sid ∈ w.server.server.connectionManager.sessions) :
    w.server.server.idle now.steady 15 sid = false := by
  have hknown := Server.known_of_alive (alive_of_connected hrun sid hconn)
  obtain ⟨x, -, since, -, hsince⟩ := Server.active_of_run hrun hknown
  obtain ⟨flag, hflag⟩ := Option.isSome_iff_exists.1 hknown
  obtain rfl : flag = false := Bool.eq_false_iff.2 fun htrue => hopen (htrue ▸ hflag)
  obtain ⟨due, hdue, hspaced⟩ := h
  rw [beats, hsince] at hspaced
  have hle := hspaced.le hdelay (hon.timer now.steady rfl due hdue) fun t ht => by
    obtain ⟨x, hx, rfl⟩ := List.mem_map.1 ht
    exact hon.handled now.steady rfl sid hmem (Core.isOpen_iff.2 hflag) x hx
  have hlt : now.steady < since + (15 + 1) * 10 ^ 9 := by linarith
  rw [Server.idle, hsince]
  exact decide_eq_false (not_lt.2 (elapsedSeconds_le_of_lt (by norm_num) hlt))

end Fed
end Deployment

open Deployment in
/-- **Heartbeats keep a connection.**  In a run in which the handler of a client's timer is late for
no more than `late`, and what it writes to an open session is handled within `delay`, with less than
11 seconds together, the connection of the client is not closed while it sends heartbeats, unless its
socket fails. -/
theorem heartbeats_keep {start late delay : Time} {tr : List (Deployment × DeploymentEvent)}
    {w : Deployment} (h : (deployment start).Run tr w) {i : ℕ} {sid : SessionId} (hlate : 0 ≤ late)
    (hdelay : 0 ≤ delay) (hsum : late + delay < 11 * 10 ^ 9)
    (hon : ∀ x ∈ tr, x.1.Timely late delay i x.2)
    (hbreaks : ∀ x ∈ tr, x.2.breaks sid = false) (hb : w.Beats i sid) :
    w.server.server.core.closedFlag sid ≠ some true := by
  induction h with
  | nil => cases hb.connections
  | @cons tr w w' e hrun hs ih =>
    have hserver := server_run hrun
    rw [List.forall_mem_cons] at hon hbreaks
    cases stepped_of_step hs with
    | @client j e now _ hen hnew hread =>
      intro hclosed
      by_cases hj : i = j
      · subst hj
        rcases Beats.of_act (Honest.of_run hrun) hserver hen hread hb with
          ⟨playerId, roomId, chat, rfl⟩ | ⟨hb, -⟩
        · -- The connection is new, and a session of it would have been active.
          have hknown : (w.server.server.core.closedFlag sid).isSome := hclosed ▸ rfl
          obtain ⟨x, -, since, -, hsince⟩ := Server.active_of_run hserver hknown
          exact hnew sid rfl ((Dated.of_run hrun).active sid since hsince).2
        · exact ih hon.2 hbreaks.2 hb hclosed
      · have hother := w.client_act_of_ne hj e now
        exact ih hon.2 hbreaks.2 ⟨hother ▸ hb.enabled, hother ▸ hb.connections⟩ hclosed
    | serve _ ht _ _ =>
      intro hclosed
      rcases TimedServer.closed_step hserver ht hclosed with hwas | ⟨now', he⟩ | ⟨order, now', he, -⟩
      · exact ih hon.2 hbreaks.2 ⟨hb.enabled, hb.connections⟩ hwas
      · cases he
      · cases he
    | @server e t' _ ht _ _ =>
      replace hb : w.Beats i sid := ⟨hb.enabled, hb.connections⟩
      have hopen := ih hon.2 hbreaks.2 hb
      intro hclosed
      rcases TimedServer.closed_step hserver ht hclosed with
        hwas | ⟨now', rfl⟩ | ⟨order, now', rfl, hconn, hidle⟩
      · exact hopen hwas
      · exact absurd hbreaks.1 (by rw [DeploymentEvent.breaks, decide_eq_true rfl]; decide)
      · have hmem : sid ∈ (w.client i).connections := hb.connections ▸ List.mem_cons_self ..
        have hfed := Fed.of_run hrun hlate hon.2 hb
        rw [hfed.not_idle hserver hdelay hsum hon.1 hmem hopen hconn] at hidle
        cases hidle

/-- A client beats for 20 seconds, handled half a second after it writes. -/
theorem heartbeats_keep_twenty : ∃ tr w, (deployment 0).Run tr w ∧ w.clock = 20 * 10 ^ 9 ∧
    w.server.server.core.closedFlag 0 ≠ some true := by
  obtain ⟨tr, w, h, hclock, hon, hbreaks, henabled, hconn⟩ := Deployment.exists_run 0
    (Q := fun tr w => w.clock = 20 * 10 ^ 9 ∧ (∀ x ∈ tr, x.1.Timely 0 (5 * 10 ^ 8) 0 x.2) ∧
      (∀ x ∈ tr, x.2.breaks 0 = false) ∧ (w.client 0).heartBeatEnable = true ∧
      (w.client 0).connections = [0])
    [.client 0 (.start 0 0 0 false) 0, .server (.handle (.accept 0 {})),
      .serve 0 (.login { username := ascii "player" }) ⟨5 * 10 ^ 8, 500⟩,
      .client 0 .heartbeat (5 * 10 ^ 9), .server (.timeoutCheck [0] ⟨5 * 10 ^ 9, 5000⟩),
      .serve 0 (.heartbeat { clientTimeMs := 5000, lastRttMs := -1 }) ⟨55 * 10 ^ 8, 5500⟩,
      .client 0 .heartbeat (10 ^ 10), .server (.timeoutCheck [0] ⟨10 ^ 10, 10000⟩),
      .serve 0 (.heartbeat { clientTimeMs := 10000, lastRttMs := -1 }) ⟨105 * 10 ^ 8, 10500⟩,
      .client 0 .heartbeat (15 * 10 ^ 9), .server (.timeoutCheck [0] ⟨15 * 10 ^ 9, 15000⟩),
      .serve 0 (.heartbeat { clientTimeMs := 15000, lastRttMs := -1 }) ⟨155 * 10 ^ 8, 15500⟩,
      .client 0 .heartbeat (20 * 10 ^ 9), .server (.timeoutCheck [0] ⟨20 * 10 ^ 9, 20000⟩)]
    (by decide +kernel)
  exact ⟨tr, w, h, hclock,
    heartbeats_keep h le_rfl (by norm_num) (by norm_num) hon hbreaks ⟨henabled, hconn⟩⟩

/-! ### The round trip times -/

namespace Deployment

variable {start : Time} {tr : List (Deployment × DeploymentEvent)} {w w' : Deployment}

/-- A client has measured a round trip time: from the time it wrote a heartbeat to the time it read
the reply with the time of that heartbeat. -/
def Measured (w : Deployment) (rtt : ℤ) : Prop :=
  ∃ (sid : SessionId) (req : HeartbeatReq) (resp : HeartbeatResp) (k : ℕ) (t₀ t₁ : Time),
    (t₀, ClientRequest.heartbeat req) ∈ w.wrote sid ∧
    (w.sentTo sid)[k]? = some (.heartbeatResp resp) ∧ (w.reads sid)[k]? = some t₁ ∧
    resp.clientTimeMs = req.clientTimeMs ∧ t₀ ≤ t₁ ∧ rtt = millis t₁ - millis t₀

/-- What the clients hold and write of round trip times was measured, if it is not `-1`. -/
structure Measures (w : Deployment) : Prop where
  held : ∀ i, (w.client i).rttMs = -1 ∨ w.Measured (w.client i).rttMs
  written : ∀ sid time req, (time, ClientRequest.heartbeat req) ∈ w.wrote sid →
    req.clientTimeMs = millis time ∧ (req.lastRttMs = -1 ∨ w.Measured req.lastRttMs)

theorem getElem?_extend {α : Type*} {l l' : List α} (h : l <+: l') {k : ℕ} {a : α}
    (ha : l[k]? = some a) : l'[k]? = some a := by
  obtain ⟨hlt, rfl⟩ := List.getElem?_eq_some_iff.1 ha
  exact List.prefix_iff_getElem?.1 h k hlt

theorem Measured.mono {rtt : ℤ} (h : w.Measured rtt) (hlater : Later w w')
    (hwrote : ∀ sid, w.wrote sid ⊆ w'.wrote sid) (hreads : ∀ sid, w.reads sid <+: w'.reads sid) :
    w'.Measured rtt := by
  obtain ⟨sid, req, resp, k, t₀, t₁, hreq, hresp, hread, hrest⟩ := h
  exact ⟨sid, req, resp, k, t₀, t₁, hwrote sid hreq,
    getElem?_extend (hlater.sentTo sid) hresp, getElem?_extend (hreads sid) hread, hrest⟩

/-- A heartbeat is written with the time and with what was measured last. -/
theorem heartbeat_of_step {c : ClientProcess} {now : Time} {e : ClientEvent} {req : HeartbeatReq}
    (h : ClientRequest.heartbeat req ∈ (c.step now e).2) :
    req.clientTimeMs = millis now ∧ req.lastRttMs = c.rttMs := by
  cases e with
  | heartbeat =>
    obtain rfl := ClientRequest.heartbeat.inj (List.mem_singleton.1 h)
    exact ⟨rfl, rfl⟩
  | reconnect sid =>
    simp only [ClientProcess.step, ClientProcess.reconnect] at h
    split_ifs at h
    · cases h
    · cases List.mem_singleton.1 h
  | stopHeartbeat => cases h
  | read sid msg =>
    cases msg with
    | loginResp resp =>
      simp only [ClientProcess.step, ClientProcess.handleMessage, ClientSimulator.handleMessage,
        ClientSimulator.match] at h
      split_ifs at h
      · cases h
      · cases List.mem_singleton.1 h
      · cases h
    | reconnectResp resp =>
      simp only [ClientProcess.step, ClientProcess.handleMessage] at h
      split_ifs at h <;> cases h
    | roomCreatedNotify resp => cases List.mem_singleton.1 h
    | _ => cases h
  | _ => cases List.mem_singleton.1 h

/-- Only the reply to a heartbeat is measured. -/
theorem rttMs_step (c : ClientProcess) (now : Time) (e : ClientEvent) :
    (c.step now e).1.rttMs = c.rttMs ∨ (c.step now e).1.rttMs = -1 ∨
      ∃ sid resp, e = .read sid (.heartbeatResp resp) ∧
        (c.step now e).1.rttMs = millis now - resp.clientTimeMs := by
  cases e with
  | start sid playerId roomId chat =>
    right; left
    cases chat <;> rfl
  | testReconnect => exact .inr (.inl rfl)
  | chat =>
    left
    simp only [ClientProcess.step, ClientProcess.durationChat]
    split_ifs <;> rfl
  | reconnect sid =>
    left
    simp only [ClientProcess.step, ClientProcess.reconnect]
    split_ifs <;> rfl
  | read sid msg =>
    cases msg with
    | heartbeatResp resp => exact .inr (.inr ⟨sid, resp, rfl, rfl⟩)
    | reconnectResp resp =>
      left
      simp only [ClientProcess.step, ClientProcess.handleMessage]
      split_ifs <;> rfl
    | _ => exact .inl rfl
  | _ => exact .inl rfl

/-- A reply to a heartbeat that is read measures a round trip. -/
theorem Measures.read {tr : History} (h : w.Measures) (hhonest : Honest tr w) (hdated : w.Dated)
    (hrun : GameServer.server.Run tr w.server.server) {i : ℕ} {sid : SessionId} {resp : HeartbeatResp}
    {now : Time} (hclock : w.clock ≤ now)
    (hread : (w.sentTo sid)[(w.reads sid).length]? = some (.heartbeatResp resp)) :
    (w.act i (.read sid (.heartbeatResp resp)) now).Measured (millis now - resp.clientTimeMs) := by
  obtain ⟨x, -, hans, k, y, hy, hwritten⟩ :=
    hhonest.exists_request hrun (List.mem_of_getElem? hread) rfl
  obtain ⟨s, req⟩ := x
  cases req with
  | heartbeat req =>
    obtain ⟨time, q⟩ := y
    obtain rfl : ClientRequest.heartbeat req = q := Option.some.inj hwritten
    have hmem := List.mem_of_getElem? hy
    have htime : resp.clientTimeMs = req.clientTimeMs := hans
    refine ⟨sid, req, resp, (w.reads sid).length, time, now, List.mem_append_left _ hmem, hread, ?_,
      htime, (hdated.wrote sid _ hmem).trans hclock, ?_⟩
    · show (w.reads sid ++ if some sid = some sid then [now] else [])[(w.reads sid).length]? = some now
      rw [if_pos rfl, List.getElem?_concat_length]
    · rw [htime, (h.written sid time req hmem).1]
  | _ => exact hans.elim

/-- The server goes on. -/
theorem Measures.server (h : w.Measures) {e : TimedEvent} {t' : TimedServer}
    (ht : (timed start).step w.server e t') (hserver : w'.server = t') (hclient : w'.client = w.client)
    (hwrote : w'.wrote = w.wrote) (hreads : w'.reads = w.reads) : w'.Measures := by
  have hlater : Later w w' :=
    ⟨hserver ▸ TimedServer.sent_prefix ht, fun sid => (congrArg (fun r => (r sid).length) hreads).ge⟩
  have hmono {rtt : ℤ} (hrtt : w.Measured rtt) : w'.Measured rtt :=
    hrtt.mono hlater (fun sid => (congrFun hwrote sid).symm ▸ List.Subset.refl _)
      fun sid => (congrFun hreads sid).symm ▸ List.prefix_rfl
  refine ⟨fun i => ?_, fun sid time req hreq => ?_⟩
  · rw [hclient]
    exact (h.held i).imp_right hmono
  · rw [hwrote] at hreq
    exact (h.written sid time req hreq).imp_right (Or.imp_right hmono)

theorem Measures.of_run (h : (deployment start).Run tr w) : w.Measures := by
  induction h with
  | nil => exact ⟨fun i => .inl rfl, fun sid time req hreq => absurd hreq List.not_mem_nil⟩
  | @cons tr w w' e hrun hs ih =>
    cases stepped_of_step hs with
    | @client i e now hclock hen hnew hread =>
      have hmono {rtt : ℤ} (hrtt : w.Measured rtt) : (w.act i e now).Measured rtt :=
        hrtt.mono (later_act w i e now) (fun sid => List.subset_append_left ..)
          (fun sid => List.prefix_append ..)
      refine ⟨fun j => ?_, fun sid time req hreq => ?_⟩
      · by_cases hj : j = i
        · subst hj
          have hself : (w.act j e now).client j = ((w.client j).step now e).1 :=
            Function.update_self ..
          rw [hself]
          rcases rttMs_step (w.client j) now e with hsame | hnone | ⟨sid, resp, rfl, hrtt⟩
          · rw [hsame]
            exact (ih.held j).imp_right hmono
          · exact .inl hnone
          · rw [hrtt]
            exact .inr (ih.read (Honest.of_run hrun) (Dated.of_run hrun) (server_run hrun) hclock
              (hread sid _ rfl))
        · have hother : (w.act i e now).client j = w.client j := Function.update_of_ne hj ..
          rw [hother]
          exact (ih.held j).imp_right hmono
      · rcases List.mem_append.1 hreq with hreq | hreq
        · obtain ⟨htime, hrtt⟩ := ih.written sid time req hreq
          exact ⟨htime, hrtt.imp_right hmono⟩
        · split_ifs at hreq
          · obtain ⟨q, hq, heq⟩ := List.mem_map.1 hreq
            obtain ⟨rfl, rfl⟩ : now = time ∧ q = .heartbeat req := Prod.mk.inj heq
            obtain ⟨htime, hrtt⟩ := heartbeat_of_step hq
            refine ⟨htime, ?_⟩
            rw [hrtt]
            exact (ih.held i).imp_right hmono
          · exact absurd hreq List.not_mem_nil
    | serve _ ht _ _ => exact ih.server ht rfl rfl rfl rfl
    | server _ ht _ _ => exact ih.server ht rfl rfl rfl rfl

end Deployment

/-- **The statistics are of round trips.**  Every value that the server records in a run of simulators
is a round trip time that a client has measured. -/
theorem rtts_measured {start : Time} {tr : List (Deployment × DeploymentEvent)} {w : Deployment}
    (h : (deployment start).Run tr w) : ∀ rtt ∈ (Deployment.history tr).rtts, w.Measured rtt := by
  intro rtt hrtt
  have hpos := pos_of_mem_rtts hrtt
  obtain ⟨⟨s, e⟩, hx, hrecorded⟩ := List.mem_filterMap.1 hrtt
  cases e with
  | request sid req now =>
    cases req with
    | heartbeat req =>
      simp only [Event.recordedRtt] at hrecorded
      split_ifs at hrecorded
      obtain rfl := Option.some.inj hrecorded
      have hmem : (s, Request.heartbeat req) ∈ (Deployment.history tr).requestsOn sid :=
        List.mem_filterMap.2 ⟨_, List.mem_reverse.2 hx, by rw [Event.requestOn, if_pos rfl]; rfl⟩
      obtain ⟨k, -, ⟨time, q⟩, hy, hwritten⟩ := (Deployment.Honest.of_run h).exists_wrote hmem
      obtain rfl : ClientRequest.heartbeat req = q := Option.some.inj hwritten
      obtain ⟨-, hnone | hmeasured⟩ :=
        (Deployment.Measures.of_run h).written sid time req (List.mem_of_getElem? hy)
      · rw [hnone] at hpos
        exact absurd hpos (by decide)
      · exact hmeasured
    | _ => cases hrecorded
  | _ => cases hrecorded

/-- The second heartbeat says how long the reply to the first one took. -/
theorem rtts_measured_four : ∃ tr w, (deployment 0).Run tr w ∧
    (Deployment.history tr).rtts = [4] ∧ w.Measured 4 := by
  obtain ⟨tr, w, h, hrtts⟩ := Deployment.exists_run 0
    (Q := fun tr _ => (Deployment.history tr).rtts = [4])
    [.client 0 (.start 0 0 0 false) 0, .server (.handle (.accept 0 {})),
      .serve 0 (.login { username := ascii "player" }) {}, .client 0 .heartbeat (5 * 10 ^ 9),
      .serve 0 (.heartbeat { clientTimeMs := 5000, lastRttMs := -1 }) ⟨5001 * 10 ^ 6, 5001⟩,
      .client 0 (.read 0 (.loginResp
        { playerId := 10000, message := ascii "login_success", token := ascii "token_10000" }))
        (5002 * 10 ^ 6),
      .client 0 (.read 0 (.heartbeatResp { clientTimeMs := 5000, serverTimeMs := 5001 }))
        (5004 * 10 ^ 6),
      .serve 0 (.match { playerId := 10000 }) ⟨5005 * 10 ^ 6, 5005⟩, .client 0 .heartbeat (10 ^ 10),
      .serve 0 (.heartbeat { clientTimeMs := 10000, lastRttMs := 4 }) ⟨10 ^ 10, 10000⟩]
    (by decide +kernel)
  exact ⟨tr, w, h, hrtts, rtts_measured h 4 (by rw [hrtts]; exact List.mem_singleton.2 rfl)⟩

end GameServer
