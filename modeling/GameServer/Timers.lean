/-
# The timers

`GameServer::start` starts two checks beside the accepting of connections, each of which sets its
timer again when it has run: the idle check, which closes the sessions that have been silent for
more than 15 whole seconds, and the reconnect check, which removes the players that have been
`Offline` for more than 30.  Both come every 5 seconds, the second also after an error of its
timer; nothing cancels a timer, so there are no errors.  (The room tick only counts, the metrics
report is `MetricsReporter.lean`, and `print_stat` is not called.)

`TimedServer` is the server with its clock and the two timers.  A handler runs at one time, which
is the time of each reading of the clock in it.  It may come late: `Prompt late` says that no more
than `late` has passed since a timer was due.  How long a session stays open in silence and how
long a player stays `Offline` follow (`timeouts_bounded`), and how long a player can count on being
let back in (`resumed_in_time`).
-/

import GameServer.ConformingClients
import GameServer.IdleConnections
import GameServer.Lib.Periodic
import GameServer.Lifecycle
import GameServer.Replies

namespace GameServer

open Periodic

/-- The server with its clock and the times at which its timers expire. -/
structure TimedServer where
  server : Server := {}
  clock : Time
  heartbeatTimer : Time
  checkReconnectTimer : Time

/-- What the event loop runs: an event of the sockets, or the handler of a timer.  `order` is the
order in which the entries of `sessions_` or of `states_` are met. -/
inductive TimedEvent
  | handle (e : Event)
  | timeoutCheck (order : List SessionId) (now : Instant)
  | reconnectTimeoutCheck (order : List PlayerId) (now : Instant)

/-- The time an event comes at.  The release of a session reads no clock. -/
def Event.time : Event → Option Time
  | .accept _ now | .request _ _ now | .close _ now | .sweep _ now => some now.steady
  | .release _ => none

/-- The close events that the loop of `check_timeout` is made of, latest first. -/
def Server.closes (s : Server) (now : Instant) : List SessionId → History
  | [] => []
  | sid :: sids =>
    match s.close sid now with
    | .ok s' => s'.closes now sids ++ [(s, .close sid now)]
    | .error _ => []

namespace TimedServer

/-- The seconds from one run of a check to the next. -/
def PERIOD : Time := 5 * 10 ^ 9

def start (now : Time) : TimedServer where
  clock := now
  heartbeatTimer := now + PERIOD
  checkReconnectTimer := now + PERIOD

def time (t : TimedServer) : TimedEvent → Time
  | .handle e => e.time.getD t.clock
  | .timeoutCheck _ now | .reconnectTimeoutCheck _ now => now.steady

def step (t : TimedServer) (e : TimedEvent) : Outcome TimedServer :=
  match e with
  | .handle e => (t.server.step e).map fun server => { t with
      server := server
      clock := e.time.getD t.clock }
  | .timeoutCheck order now => (t.server.checkTimeout order now).map fun server => { t with
      server := server
      clock := now.steady
      heartbeatTimer := now.steady + PERIOD }
  | .reconnectTimeoutCheck order now =>
    (t.server.checkReconnectTimeout order now).map fun server => { t with
      server := server
      clock := now.steady
      checkReconnectTimer := now.steady + PERIOD }

/-- The events that can come next: the clock is steady, a timer has expired when its handler runs,
and the sweep is a handler of a timer. -/
def Enabled (t : TimedServer) (e : TimedEvent) : Prop :=
  t.clock ≤ t.time e ∧
    match e with
    | .handle e => t.server.Enabled e ∧ ∀ order now, e ≠ .sweep order now
    | .timeoutCheck order now => t.heartbeatTimer ≤ now.steady ∧
        order.toFinset = t.server.connectionManager.sessions
    | .reconnectTimeoutCheck order now => t.checkReconnectTimer ≤ now.steady ∧
        t.server.playerStateManager.states.Enumerates order

/-- The events of the server that an event consists of, latest first. -/
def served (t : TimedServer) : TimedEvent → History
  | .handle e => [(t.server, e)]
  | .timeoutCheck order now => t.server.closes now (order.filter (t.server.idle now.steady 15))
  | .reconnectTimeoutCheck order now => [(t.server, .sweep order now)]

/-- No timer is due for more than `late`. -/
structure Prompt (t : TimedServer) (late now : Time) : Prop where
  heartbeat : now ≤ t.heartbeatTimer + late
  checkReconnect : now ≤ t.checkReconnectTimer + late

instance (t : TimedServer) (late now : Time) : Decidable (t.Prompt late now) :=
  decidable_of_iff (now ≤ t.heartbeatTimer + late ∧ now ≤ t.checkReconnectTimer + late)
    ⟨fun ⟨hh, hc⟩ => ⟨hh, hc⟩, fun h => ⟨h.heartbeat, h.checkReconnect⟩⟩

/-- The events of the server in a run. -/
def history (tr : List (TimedServer × TimedEvent)) : History :=
  tr.flatMap fun x => x.1.served x.2

end TimedServer

/-- The server with its timers, started at the time `now`. -/
def timed (now : Time) : Transition.System TimedServer TimedEvent where
  init := .start now
  step t e t' := t.Enabled e ∧ t.step e = .ok t'

namespace TimedServer

/-- The event can come next, decided by computation. -/
def enables (t : TimedServer) (e : TimedEvent) : Bool :=
  decide (t.clock ≤ t.time e) &&
    match e with
    | .handle (.sweep _ _) => false
    | .handle e => t.server.enables e
    | .timeoutCheck order now => decide (t.heartbeatTimer ≤ now.steady ∧
        order.toFinset = t.server.connectionManager.sessions)
    | .reconnectTimeoutCheck order now => decide (t.checkReconnectTimer ≤ now.steady ∧
        t.server.playerStateManager.states.Enumerates order)

theorem enabled_of_enables {t : TimedServer} {e : TimedEvent} (h : t.enables e = true) :
    t.Enabled e := by
  obtain ⟨hclock, h⟩ := Bool.and_eq_true_iff.1 h
  refine ⟨of_decide_eq_true hclock, ?_⟩
  cases e with
  | handle e =>
    cases e with
    | sweep order now => cases h
    | _ => exact ⟨Server.enabled_of_enables h, fun order now he => by cases he⟩
  | timeoutCheck order now | reconnectTimeoutCheck order now => exact of_decide_eq_true h

/-- A replay that ends as `Q` says is a run that does. -/
theorem exists_run (start : Time) {Q : List (TimedServer × TimedEvent) → TimedServer → Prop}
    [∀ tr t, Decidable (Q tr t)] (es : List TimedEvent)
    (h : (Transition.System.replay (fun t e => if enables t e then (t.step e).toOption else none) []
      (.start start) es).any (fun x => decide (Q x.1 x.2)) = true) :
    ∃ tr t, (timed start).Run tr t ∧ Q tr t := by
  refine Transition.System.exists_run_of_replay (M := timed start) (fun t e t' ht => ?_) es h
  split_ifs at ht with hen
  refine ⟨enabled_of_enables hen, ?_⟩
  cases hs : t.step e with
  | error c =>
    rw [hs] at ht
    cases ht
  | ok t₁ =>
    rw [hs] at ht
    rw [Option.some.inj ht]

end TimedServer

/-! ### The server under the timers -/

namespace Server

theorem closes_cons {s s' : Server} {sid : SessionId} {now : Instant}
    (h : s.close sid now = .ok s') (sids : List SessionId) :
    s.closes now (sid :: sids) = s'.closes now sids ++ [(s, .close sid now)] := by
  rw [closes, h]

/-- The loop of `check_timeout` is a run of the closes. -/
theorem closes_run {tr : History} {s s' : Server} {now : Instant} {sids : List SessionId}
    (h : server.Run tr s) (halive : ∀ sid ∈ sids, s.core.Alive sid)
    (hs : s.closeAll now sids = .ok s') : server.Run (s.closes now sids ++ tr) s' := by
  induction sids generalizing tr s with
  | nil =>
    obtain rfl := Except.ok.inj hs
    exact h
  | cons sid sids ih =>
    rw [List.forall_mem_cons] at halive
    unfold closeAll at hs
    split at hs
    · rename_i s₁ hclose
      have hstep : server.step s (.close sid now) s₁ := ⟨(s.alive_iff sid).2 halive.1, hclose⟩
      rw [closes_cons hclose, List.append_assoc]
      exact ih (h.cons hstep)
        (fun sid' hsid' => (close_frame hstep).2 sid' (halive.2 sid' hsid')) hs
    · cases hs

theorem mem_closes {s : Server} {now : Instant} {sids : List SessionId} {x : Server × Event}
    (hx : x ∈ s.closes now sids) : ∃ sid ∈ sids, x.2 = .close sid now := by
  induction sids generalizing s with
  | nil => exact absurd hx List.not_mem_nil
  | cons sid sids ih =>
    unfold closes at hx
    split at hx
    · rcases List.mem_append.1 hx with hx | hx
      · obtain ⟨sid', hsid', heq⟩ := ih hx
        exact ⟨sid', List.mem_cons_of_mem _ hsid', heq⟩
      · rw [List.mem_singleton.1 hx]
        exact ⟨sid, List.mem_cons_self .., rfl⟩
    · exact absurd hx List.not_mem_nil

end Server
namespace TimedServer

/-- What an event does. -/
inductive Stepped (t : TimedServer) : TimedEvent → TimedServer → Prop
  | handle {e : Event} {s' : Server} (hclock : t.clock ≤ e.time.getD t.clock)
      (hsweep : ∀ order now, e ≠ .sweep order now) (hs : GameServer.server.step t.server e s') :
      Stepped t (.handle e) { t with server := s', clock := e.time.getD t.clock }
  | timeoutCheck {order : List SessionId} {now : Instant} {s' : Server}
      (hclock : t.clock ≤ now.steady) (horder : order.toFinset = t.server.connectionManager.sessions)
      (hs : t.server.checkTimeout order now = .ok s') :
      Stepped t (.timeoutCheck order now) { t with
        server := s'
        clock := now.steady
        heartbeatTimer := now.steady + PERIOD }
  | reconnectTimeoutCheck {order : List PlayerId} {now : Instant} {s' : Server}
      (hclock : t.clock ≤ now.steady)
      (hs : GameServer.server.step t.server (.sweep order now) s') :
      Stepped t (.reconnectTimeoutCheck order now) { t with
        server := s'
        clock := now.steady
        checkReconnectTimer := now.steady + PERIOD }

theorem map_eq_ok {α β ε : Type*} {f : α → β} {x : Except ε α} {b : β} (h : x.map f = .ok b) :
    ∃ a, x = .ok a ∧ f a = b := by
  cases x with
  | error _ => cases h
  | ok a => exact ⟨a, rfl, Except.ok.inj h⟩

theorem stepped_of_step {now : Time} {t t' : TimedServer} {e : TimedEvent}
    (h : (timed now).step t e t') : Stepped t e t' := by
  obtain ⟨⟨hclock, hen⟩, h⟩ := h
  cases e with
  | handle e =>
    obtain ⟨s', hs, rfl⟩ := map_eq_ok h
    exact .handle hclock hen.2 ⟨hen.1, hs⟩
  | timeoutCheck order now =>
    obtain ⟨s', hs, rfl⟩ := map_eq_ok h
    exact .timeoutCheck hclock hen.2 hs
  | reconnectTimeoutCheck order now =>
    obtain ⟨s', hs, rfl⟩ := map_eq_ok h
    exact .reconnectTimeoutCheck hclock ⟨hen.2, hs⟩

/-- The sessions that an idle check closes are registered. -/
theorem alive_of_idle {tr : History} {t : TimedServer} (h : GameServer.server.Run tr t.server)
    {order : List SessionId} (horder : order.toFinset = t.server.connectionManager.sessions)
    (now : Instant) : ∀ sid ∈ order.filter (t.server.idle now.steady 15),
      sid ∈ t.server.connectionManager.sessions ∧ t.server.core.Alive sid := by
  intro sid hsid
  have hmem : sid ∈ t.server.connectionManager.sessions := by
    rw [← horder, List.mem_toFinset]
    exact List.mem_of_mem_filter hsid
  exact ⟨hmem, alive_of_connected h sid hmem⟩

/-- **A run with timers is a run of the server.** -/
theorem run_history {now : Time} {tr : List (TimedServer × TimedEvent)} {t : TimedServer}
    (h : (timed now).Run tr t) : GameServer.server.Run (history tr) t.server := by
  induction h with
  | nil => exact .nil
  | @cons tr t t' e _ hs ih =>
    cases stepped_of_step hs with
    | handle _ _ hstep => exact ih.cons hstep
    | @timeoutCheck order now s' _ horder hcheck =>
      exact Server.closes_run ih (fun sid hsid => (alive_of_idle ih horder now sid hsid).2) hcheck
    | reconnectTimeoutCheck _ hsweep => exact ih.cons hsweep

/-! ### The players that are Offline -/

/-- The runtime states, dated by the time of the disconnect. -/
def offline : Collector TimedServer PlayerId where
  clock := clock
  timer := checkReconnectTimer
  Dated t p since := t.server.core.OfflineSince p since
  limit := 31 * 10 ^ 9
  period := PERIOD
  limit_pos := by norm_num

end TimedServer

/-- A player becomes `Offline` at the time of a close. -/
theorem CoreStep.offlineSince {c c' : Core} {a : Act} (h : CoreStep c a c') {p : PlayerId}
    {t : Time} (hp : c'.OfflineSince p t) : c.OfflineSince p t ∨ a.closedAt = some t := by
  cases h with
  | close _ _ _ _ =>
    rw [Core.offlineSince_close rfl] at hp
    split_ifs at hp
    · exact .inr (congrArg some hp.symm)
    · exact .inl hp
  | resume _ _ _ => exact .inl ((Core.offlineSince_resume rfl p t).1 hp).2
  | sweep _ _ hfold => exact .inl ((Core.offlineSince_sweep hfold p t).1 hp).2
  | _ => exact .inl hp

namespace Server

variable {s s' : Server}

theorem closedAt_act {e : Event} {t : Time} (h : (s.act e).closedAt = some t) :
    ∃ sid now, e = .close sid now ∧ now.steady = t := by
  cases e with
  | close sid now =>
    simp only [act] at h
    split_ifs at h
    · cases h
    · exact ⟨sid, now, rfl, Option.some.inj h⟩
  | request sid req now =>
    cases hact : s.act (.request sid req now) with
    | close sid' t' =>
      have hnone := setsClosed_request s sid req now sid'
      rw [hact, Act.setsClosed, if_pos rfl] at hnone
      cases hnone
    | _ =>
      rw [hact] at h
      cases h
  | _ => cases h

theorem offlineSince_step {e : Event} (h : server.step s e s') {p : PlayerId} {t : Time}
    (hp : s'.core.OfflineSince p t) : s.core.OfflineSince p t ∨ e.time = some t := by
  rcases (step_core h).offlineSince hp with hp | hact
  · exact .inl hp
  · obtain ⟨sid, now, rfl, rfl⟩ := closedAt_act hact
    exact .inr rfl

theorem offlineSince_closeAll {now : Instant} {sids : List SessionId}
    (halive : ∀ sid ∈ sids, s.core.Alive sid) (h : s.closeAll now sids = .ok s') {p : PlayerId}
    {t : Time} (hp : s'.core.OfflineSince p t) : s.core.OfflineSince p t ∨ t = now.steady := by
  induction sids generalizing s with
  | nil =>
    obtain rfl := Except.ok.inj h
    exact .inl hp
  | cons sid sids ih =>
    rw [List.forall_mem_cons] at halive
    unfold closeAll at h
    split at h
    · rename_i s₁ hclose
      have hstep : server.step s (.close sid now) s₁ := ⟨(s.alive_iff sid).2 halive.1, hclose⟩
      rcases ih (fun sid' hsid' => (close_frame hstep).2 sid' (halive.2 sid' hsid')) h with hp | hp
      · exact (offlineSince_step hstep hp).imp_right fun he => (Option.some.inj he).symm
      · exact .inr hp
    · cases h

end Server

/-- What the truncation to whole seconds leaves of a limit. -/
theorem lt_of_elapsedSeconds_le {now t : Time} {k : ℤ} (hk : 0 ≤ k) (h : elapsedSeconds now t ≤ k) :
    now < t + (k + 1) * 10 ^ 9 := by
  by_contra hle
  have hge : (k + 1) * 10 ^ 9 ≤ now - t := by linarith
  have hpos : 0 ≤ now - t := le_trans (by positivity) hge
  rw [elapsedSeconds, Int.tdiv_eq_ediv_of_nonneg hpos] at h
  have hsec := Int.le_ediv_of_mul_le (by norm_num) hge
  omega

namespace TimedServer

theorem fresh_offline {now : Time} {tr : List (TimedServer × TimedEvent)} {t : TimedServer}
    (h : (timed now).Run tr t) : offline.Fresh t := by
  induction h with
  | nil =>
    refine ⟨le_rfl, fun p since hp => ?_⟩
    obtain ⟨st, hst, -⟩ := hp
    cases hst
  | @cons tr t t' e hrun hs ih =>
    refine ih.step ?_
    have hserver := run_history hrun
    cases stepped_of_step hs with
    | handle hclock hsweep hstep =>
      refine .event hclock rfl fun p since hp => ?_
      refine (Server.offlineSince_step hstep hp).imp_right fun he => ?_
      show since = Option.getD _ _
      rw [he, Option.getD_some]
    | @timeoutCheck order now s' hclock horder hcheck =>
      refine .event hclock rfl fun p since hp => ?_
      exact Server.offlineSince_closeAll
        (fun sid hsid => (alive_of_idle hserver horder now sid hsid).2) hcheck hp
    | @reconnectTimeoutCheck order now s' hclock hstep =>
      refine .check rfl fun p since hp => ?_
      obtain ⟨hmem, hfold⟩ := (Server.step_core hstep).of_sweep
      obtain ⟨hnot, hsince⟩ := (Core.offlineSince_sweep hfold p since).1 hp
      have hle : elapsedSeconds now.steady since ≤ 30 :=
        not_lt.1 fun hlt => hnot ((hmem p).2 ⟨since, hsince, hlt⟩)
      exact lt_of_elapsedSeconds_le (by norm_num) hle

end TimedServer

/-! ### The sessions that are registered -/

/-- The time of an event that is activity on the session. -/
def Event.activityOn (sid : SessionId) : Event → Option Time
  | .accept sid' now | .request sid' _ now => if sid = sid' then some now.steady else none
  | _ => none

theorem Event.time_of_activityOn {sid : SessionId} {e : Event} {t : Time}
    (h : e.activityOn sid = some t) : e.time = some t := by
  cases e with
  | accept sid' now | request sid' req now =>
    simp only [activityOn] at h
    split_ifs at h
    exact h
  | _ => cases h

namespace Server

variable {s s' : Server}

/-- The last activity on a session is its last packet. -/
theorem lastActive_step {e : Event} (h : server.step s e s') (sid : SessionId) :
    s'.lastActive.lookup sid = (e.activityOn sid).or (s.lastActive.lookup sid) := by
  have hreceived : ∀ sid' (now : Instant), (s.lastActive.insert sid' now.steady).lookup sid =
      (if sid = sid' then some now.steady else none).or (s.lastActive.lookup sid) := fun sid' now => by
    rw [Table.lookup_insert']
    split_ifs <;> rfl
  have hcase := handled_of_step h.2
  generalize s.act e = a at hcase
  clear h
  cases hcase with
  | closed | close | release | sweep => rfl
  | heartbeat sid' req now =>
    have htwice : ((s.lastActive.insert sid' now.steady).insert sid' now.steady).lookup sid =
        (s.lastActive.insert sid' now.steady).lookup sid := by
      rw [Table.lookup_insert', Table.lookup_insert']
      split_ifs <;> rfl
    exact htwice.trans (hreceived sid' now)
  | _ => exact hreceived _ _

/-- A session that is registered and open after an event was so before it, or the event is activity
on it. -/
theorem registered_before {tr : History} (hrun : server.Run tr s) {e : Event}
    (h : server.step s e s') {sid : SessionId} (hopen : s'.core.Open sid)
    (hconn : sid ∈ s'.connectionManager.sessions) :
    (s.core.Open sid ∧ sid ∈ s.connectionManager.sessions) ∨ (e.activityOn sid).isSome := by
  have hcore := step_core h
  rcases (hcore.mem_connected sid).1 hconn with hintro | ⟨hconn, -⟩
  · obtain ⟨req, now, rfl⟩ := Event.request_of_introduces (introduces_of_act hintro)
    right
    rw [Event.activityOn, if_pos rfl]
    rfl
  · obtain ⟨ses, hses, -⟩ := alive_of_connected hrun sid hconn
    have hsome : (s.core.closedFlag sid).isSome := by
      rw [Core.closedFlag, hses]
      rfl
    exact .inl ⟨(hcore.isOpen_before hsome hopen).1, hconn⟩

/-- A session that was accepted has the time of an activity on it. -/
theorem active_of_run {tr : History} (h : server.Run tr s) {sid : SessionId}
    (hsid : (s.core.closedFlag sid).isSome) :
    ∃ x ∈ tr, ∃ since, x.2.activityOn sid = some since ∧ s.lastActive.lookup sid = some since := by
  induction h with
  | nil => cases hsid
  | @cons tr s s' e hrun hs ih =>
    rw [lastActive_step hs]
    cases hactive : e.activityOn sid with
    | some since => exact ⟨_, List.mem_cons_self .., since, hactive, rfl⟩
    | none =>
      have hbefore : (s.core.closedFlag sid).isSome := by
        rw [closedFlag_step hs] at hsid
        cases e with
        | accept sid' now =>
          simp only [Event.activityOn] at hactive
          split_ifs at hactive with hne
          rwa [Event.setsClosed, if_neg hne, Option.none_or] at hsid
        | close sid' now =>
          by_cases hs' : sid = sid'
          · exact hs' ▸ known_of_alive ((s.alive_iff sid').1 hs.1)
          · rwa [Event.setsClosed, if_neg hs', Option.none_or] at hsid
        | _ => exact hsid
      obtain ⟨x, hx, since, hx', hsince⟩ := ih hbefore
      exact ⟨x, List.mem_cons_of_mem _ hx, since, hx', hsince⟩

end Server

namespace TimedServer

/-- The open sessions that are registered, dated by their last activity. -/
def silent : Collector TimedServer SessionId where
  clock := clock
  timer := heartbeatTimer
  Dated t sid since := t.server.core.Open sid ∧ sid ∈ t.server.connectionManager.sessions ∧
    (t.server.lastActive.lookup sid).getD 0 = since
  limit := 16 * 10 ^ 9
  period := PERIOD
  limit_pos := by norm_num

/-- An event of the server dates a session by its own time, if at all. -/
theorem silent_step {tr : History} {t : TimedServer} {e : Event} {s' : Server}
    (hrun : GameServer.server.Run tr t.server) (h : GameServer.server.step t.server e s')
    {sid : SessionId} (hopen : s'.core.Open sid) (hconn : sid ∈ s'.connectionManager.sessions) :
    silent.Dated t sid ((s'.lastActive.lookup sid).getD 0) ∨
      (s'.lastActive.lookup sid).getD 0 = e.time.getD t.clock := by
  rw [Server.lastActive_step h]
  cases hactive : e.activityOn sid with
  | some time =>
    right
    rw [Event.time_of_activityOn hactive]
    rfl
  | none =>
    left
    rcases Server.registered_before hrun h hopen hconn with ⟨hopen, hconn⟩ | hsome
    · exact ⟨hopen, hconn, rfl⟩
    · rw [hactive] at hsome
      cases hsome

/-- The idle check leaves no registered session that has been silent for too long. -/
theorem silent_check {tr : History} {t : TimedServer} {order : List SessionId} {now : Instant}
    {s' : Server} (hrun : GameServer.server.Run tr t.server)
    (horder : order.toFinset = t.server.connectionManager.sessions)
    (h : t.server.checkTimeout order now = .ok s') {sid : SessionId} (hopen : s'.core.Open sid)
    (hconn : sid ∈ s'.connectionManager.sessions) :
    now.steady < (s'.lastActive.lookup sid).getD 0 + 16 * 10 ^ 9 := by
  have halive := fun sid hsid => (alive_of_idle hrun horder now sid hsid).2
  obtain ⟨hactive, hflag⟩ := Server.closeAll_frame halive h
  have hrun' := Server.closes_run hrun halive h
  -- The check closes sessions, and registers none.
  obtain ⟨x, hx, hintro⟩ := (mem_connected_iff hrun' hopen).1 hconn
  rw [Core.isOpen_iff, hflag] at hopen
  split_ifs at hopen with hclosed
  · cases hopen
  rw [← Core.isOpen_iff] at hopen
  have hbefore : History.Introduced tr sid := by
    rcases List.mem_append.1 hx with hx | hx
    · obtain ⟨sid', -, heq⟩ := Server.mem_closes hx
      have hevent := Server.introduces_of_act hintro
      rw [heq] at hevent
      cases hevent
    · exact ⟨x, hx, hintro⟩
  have hmem : sid ∈ order := by
    rw [← List.mem_toFinset, horder]
    exact (mem_connected_iff hrun hopen).2 hbefore
  have hidle : ¬ t.server.idle now.steady 15 sid = true := fun hidle =>
    hclosed (List.mem_filter.2 ⟨hmem, hidle⟩)
  rw [hactive]
  exact lt_of_elapsedSeconds_le (k := 15) (by norm_num)
    (not_lt.1 fun hlt => hidle (decide_eq_true hlt))

theorem fresh_silent {now : Time} {tr : List (TimedServer × TimedEvent)} {t : TimedServer}
    (h : (timed now).Run tr t) : silent.Fresh t := by
  induction h with
  | nil => exact ⟨le_rfl, fun sid since hsid => absurd hsid.2.1 (Finset.notMem_empty _)⟩
  | @cons tr t t' e hrun hs ih =>
    refine ih.step ?_
    have hserver := run_history hrun
    cases stepped_of_step hs with
    | handle hclock hsweep hstep =>
      refine .event hclock rfl fun sid since ⟨hopen, hconn, hsince⟩ => ?_
      exact hsince ▸ silent_step hserver hstep hopen hconn
    | timeoutCheck hclock horder hcheck =>
      refine .check rfl fun sid since ⟨hopen, hconn, hsince⟩ => ?_
      exact hsince ▸ silent_check hserver horder hcheck hopen hconn
    | reconnectTimeoutCheck hclock hstep =>
      refine .event hclock rfl fun sid since ⟨hopen, hconn, hsince⟩ => ?_
      exact hsince ▸ silent_step hserver hstep hopen hconn

/-- The clock does not go back. -/
theorem clock_le {now : Time} {t t' : TimedServer} {e : TimedEvent} (h : (timed now).step t e t') :
    t.clock ≤ t'.clock ∧ t'.clock = t.time e := by
  cases stepped_of_step h with
  | handle hclock _ _ => exact ⟨hclock, rfl⟩
  | timeoutCheck hclock _ _ => exact ⟨hclock, rfl⟩
  | reconnectTimeoutCheck hclock _ => exact ⟨hclock, rfl⟩

end TimedServer

open TimedServer in
/-- **How long silence and absence last.**  In a run with timers, when no timer is due for more
than `late`, no open session that is registered has been silent for 21 seconds and `late`, and no
player has been held `Offline` for 36 seconds and `late`. -/
theorem timeouts_bounded {start late now : Time} {tr : List (TimedServer × TimedEvent)}
    {t : TimedServer} (h : (timed start).Run tr t) (hprompt : t.Prompt late now) :
    (∀ sid ∈ t.server.connectionManager.sessions, t.server.core.Open sid →
        ∀ since ∈ t.server.lastActive.lookup sid, now < since + 21 * 10 ^ 9 + late) ∧
      ∀ p since, t.server.core.OfflineSince p since → now < since + 36 * 10 ^ 9 + late := by
  constructor
  · intro sid hconn hopen since hsince
    have hlt := (fresh_silent h).lt ⟨hopen, hconn, rfl⟩ hprompt.heartbeat
    simp only [silent, PERIOD, Option.mem_def.1 hsince, Option.getD_some] at hlt
    linarith
  · intro p since hoff
    have hlt := (fresh_offline h).lt hoff hprompt.checkReconnect
    simp only [offline, PERIOD] at hlt
    linarith

open TimedServer in
/-- One player is connected and another one `Offline` when the checks are due. -/
theorem timeouts_bounded_both : ∃ tr t, (timed 0).Run tr t ∧ 1 ∈ t.server.connectionManager.sessions ∧
    (∀ since ∈ t.server.lastActive.lookup 1, 10 * 10 ^ 9 < since + 21 * 10 ^ 9 + 0) ∧
    t.server.core.OfflineSince 10000 (10 ^ 9) ∧ (10 * 10 ^ 9 : Time) < 10 ^ 9 + 36 * 10 ^ 9 + 0 := by
  obtain ⟨tr, t, h, hconn, hopen, hoff, hprompt⟩ := TimedServer.exists_run 0
    (Q := fun _ t => 1 ∈ t.server.connectionManager.sessions ∧ t.server.core.Open 1 ∧
      t.server.core.OfflineSince 10000 (10 ^ 9) ∧ t.Prompt 0 (10 * 10 ^ 9))
    [.handle (.accept 0 {}), .handle (.request 0 (.login { username := [0x61] }) {}),
      .handle (.close 0 ⟨10 ^ 9, 0⟩), .handle (.accept 1 ⟨2 * 10 ^ 9, 0⟩),
      .handle (.request 1 (.login { username := [0x62] }) ⟨2 * 10 ^ 9, 0⟩),
      .timeoutCheck [1] ⟨5 * 10 ^ 9, 0⟩, .reconnectTimeoutCheck [10000] ⟨5 * 10 ^ 9, 0⟩]
    (by decide +kernel)
  obtain ⟨hsilent, hoffline⟩ := timeouts_bounded h hprompt
  exact ⟨tr, t, h, hconn, hsilent 1 hconn hopen, hoff, hoffline 10000 _ hoff⟩

/-! ### How long a player can come back -/

/-- A reconnect is the only way to resume. -/
theorem resumes_of_act {s s' : Server} {e : Event} (h : server.step s e s') {sid : SessionId}
    {p : PlayerId} {token : Bytes} (hact : s.act e = .resume sid p token) : Resumes (s, e) p := by
  cases e with
  | request sid' req now =>
    cases req with
    | reconnect req =>
      rcases s.act_reconnect sid' req now with ⟨-, hidle⟩ | ⟨-, hresume⟩
      · rw [hidle] at hact
        cases hact
      · obtain ⟨-, rfl, -⟩ := Act.resume.inj (hresume.symm.trans hact)
        obtain ⟨roomId, hacc⟩ := (Server.act_eq_resume_iff h).2 hresume
        exact ⟨sid', req, now, s', roomId, rfl, rfl, h, hacc⟩
    | login req | «match» req =>
      simp only [Server.act] at hact
      split_ifs at hact
    | _ => cases hact
  | close sid' now => rcases s.act_close sid' now with he | he <;> rw [he] at hact <;> cases hact
  | _ => cases hact

/-- No whole second is counted before it has passed. -/
theorem elapsedSeconds_le_of_lt {now t : Time} {k : ℤ} (hk : 0 ≤ k)
    (h : now < t + (k + 1) * 10 ^ 9) : elapsedSeconds now t ≤ k := by
  have hle : now - t < (k + 1) * 10 ^ 9 := by linarith
  rw [elapsedSeconds]
  rcases le_total 0 (now - t) with hpos | hneg
  · rw [Int.tdiv_eq_ediv_of_nonneg hpos]
    exact Int.lt_add_one_iff.1 (Int.ediv_lt_of_lt_mul (by norm_num) hle)
  · have hzero := Int.tdiv_le_tdiv (by norm_num : (0 : ℤ) < 10 ^ 9) hneg
    rw [Int.zero_tdiv] at hzero
    exact hzero.trans hk

/-- **One step leaves a player `Offline`** that it does not resume, if it is not a sweep 31 seconds
later. -/
theorem Core.OfflineSince.step {c c' : Core} {a : Act} {p : PlayerId} {since : Time}
    (h : c.OfflineSince p since) (hw : WellBound c) (hp : p ≠ 0)
    (hno : ∀ sid token, a ≠ .resume sid p token)
    (htime : ∀ ps now, a = .sweep ps now → now < since + 31 * 10 ^ 9) (hs : CoreStep c a c') :
    c'.OfflineSince p since := by
  have hoff := Core.offline_iff.2 ⟨since, h⟩
  cases hs with
  | @resume sid q token st rm _ _ _ =>
    have hne : p ≠ q := fun he => hno sid token (he ▸ rfl)
    exact (Core.offlineSince_resume rfl p since).2 ⟨hne, h⟩
  | close hses hopen _ _ =>
    have hne : p ≠ _ := fun he => hw.not_bound_of_offline hp hoff ⟨_, hses, hopen, he.symm⟩
    rw [Core.offlineSince_close rfl, if_neg hne]
    exact h
  | @sweep _ ps now _ hmem hfold =>
    refine (Core.offlineSince_sweep hfold p since).2 ⟨fun hps => ?_, h⟩
    obtain ⟨t, ht, hlate⟩ := (hmem p).1 hps
    obtain rfl := ht.unique h
    exact absurd (elapsedSeconds_le_of_lt (k := 30) (by norm_num) (htime ps now rfl))
      (not_le.2 hlate)
  | _ => exact h

/-- The sweep is the only event that sweeps. -/
theorem Server.sweep_of_act {s : Server} {e : Event} {ps : List PlayerId} {time : Time}
    (h : s.act e = .sweep ps time) : ∃ order now, e = .sweep order now ∧ now.steady = time := by
  cases e with
  | sweep order now => exact ⟨order, now, rfl, (Act.sweep.inj h).2⟩
  | request sid req now =>
    cases req with
    | reconnect req =>
      rcases s.act_reconnect sid req now with ⟨-, he⟩ | ⟨-, he⟩ <;> rw [he] at h <;> cases h
    | login req | «match» req =>
      simp only [act] at h
      split_ifs at h
    | _ => cases h
  | close sid now => rcases s.act_close sid now with he | he <;> rw [he] at h <;> cases h
  | _ => cases h

/-- A player stays `Offline` in a run that does not resume it and sweeps early enough. -/
theorem offlineSince_of_run {tr₂ tr₁ : History} {s : Server} (h : server.Run (tr₂ ++ tr₁) s)
    (hl : (tr₂ ++ tr₁).logins < 2 ^ 31 - 10000) {p : PlayerId} (hp : p ≠ 0) {since : Time}
    (hlife : tr₁.life p = .offline since) (hno : ∀ x ∈ tr₂, ¬ Resumes x p)
    (htime : ∀ x ∈ tr₂, ∀ order now, x.2 = .sweep order now → now.steady < since + 31 * 10 ^ 9) :
    s.core.OfflineSince p since := by
  induction tr₂ generalizing s with
  | nil =>
    have htracks := tracks_of_run h hl hp
    rw [List.nil_append, hlife] at htracks
    exact htracks
  | cons x tr₂ ih =>
    rw [List.forall_mem_cons] at hno htime
    have hl' := lt_of_le_of_lt (logins_le_of_suffix (List.suffix_cons x (tr₂ ++ tr₁))) hl
    cases h with
    | @cons _ s₁ _ e hrun hs =>
      refine (ih hrun hl' hno.2 htime.2).step (WellBound.of_run hrun hl') hp ?_ ?_
        (Server.step_core hs)
      · exact fun sid token hact => hno.1 (resumes_of_act hs hact)
      · intro ps time hact
        obtain ⟨order, now, rfl, rfl⟩ := Server.sweep_of_act hact
        exact htime.1 order now rfl

/-- The sweeps of a run have come. -/
theorem TimedServer.sweep_le_clock {start : Time} {tr : List (TimedServer × TimedEvent)}
    {t : TimedServer} (h : (timed start).Run tr t) :
    ∀ x ∈ history tr, ∀ order now, x.2 = .sweep order now → now.steady ≤ t.clock := by
  induction h with
  | nil => exact fun x hx => absurd hx List.not_mem_nil
  | @cons tr t t' e hrun hs ih =>
    intro x hx order now hsweep
    rw [history, List.flatMap_cons, List.mem_append] at hx
    rcases hx with hx | hx
    · cases stepped_of_step hs with
      | handle hclock hnot _ =>
        rw [served, List.mem_singleton] at hx
        subst hx
        exact absurd hsweep (hnot order now)
      | timeoutCheck _ _ _ =>
        obtain ⟨sid, -, heq⟩ := Server.mem_closes hx
        cases heq.symm.trans hsweep
      | reconnectTimeoutCheck _ _ =>
        rw [served, List.mem_singleton] at hx
        subst hx
        obtain ⟨-, rfl⟩ := Event.sweep.inj hsweep
        exact le_rfl
    · exact (ih x hx order now hsweep).trans (clock_le hs).1

open TimedServer in
/-- **A player can come back for 31 seconds.**  If the last that happened to a player was a close
at the time `since`, and it was not resumed from then on, then whatever else comes, a ReconnectReq
with the token that was issued is handled and accepted until the clock is at `since + 31 s`. -/
theorem resumed_in_time {start since : Time} {tr₂ tr₁ : List (TimedServer × TimedEvent)}
    {t : TimedServer} (h : (timed start).Run (tr₂ ++ tr₁) t)
    (hl : (history (tr₂ ++ tr₁)).logins < 2 ^ 31 - 10000)
    (hr : (history (tr₂ ++ tr₁)).roomsCreated < 2 ^ 31 - 1) {p : PlayerId}
    (hlife : (history tr₁).life p = .offline since) (hno : ∀ x ∈ history tr₂, ¬ Resumes x p)
    (hclock : t.clock < since + 31 * 10 ^ 9) {sid : SessionId} (halive : t.server.alive sid)
    {req : ReconnectReq} (hreq : toInt req.playerId = p)
    (htoken : (p, req.token) ∈ t.server.issued.map Prod.snd) (now : Instant) :
    ∃ s' roomId, server.step t.server (.request sid (.reconnect req) now) s' ∧
      t.server.Accepts s' sid p roomId := by
  have hrun := run_history h
  have hp : p ≠ 0 := by
    obtain ⟨x, hx, he⟩ := List.mem_map.1 htoken
    have hle := (Server.issued_range hrun hl x hx).1
    rintro rfl
    rw [he] at hle
    norm_num at hle
  have hsplit : history (tr₂ ++ tr₁) = history tr₂ ++ history tr₁ := List.flatMap_append
  have hoff : t.server.core.OfflineSince p since := by
    rw [hsplit] at hrun hl
    refine offlineSince_of_run hrun hl hp hlife hno fun x hx order now' hsweep => ?_
    have hmem : x ∈ history (tr₂ ++ tr₁) := hsplit ▸ List.mem_append_left _ hx
    exact (sweep_le_clock h x hmem order now' hsweep).trans_lt hclock
  subst hreq
  obtain ⟨rm, hrm⟩ := (Linked.of_run hrun hl hr).mark_isOk (toInt req.playerId) .online
  obtain ⟨s', hs'⟩ := Server.step_reconnect now halive hrm
  have hident := Identified.of_run hrun
  obtain ⟨st, hst, hconn, -⟩ := hoff
  refine ⟨s', st.roomId, hs', (Server.accepts_iff hs' _).2 ⟨st, ⟨hst, ?_, hconn⟩, rfl⟩⟩
  rw [hident.token htoken]
  exact hident.token ((hident.state hst).resolve_left fun h0 => hp h0.1)

open TimedServer in
/-- A player comes back on a new connection 25 seconds after the old one was closed, after a check
that was late. -/
theorem resumed_in_time_back : ∃ (t : TimedServer) (s' : Server) (roomId : RoomId), t.clock = 30 * 10 ^ 9 ∧
    server.step t.server (.request 1 (.reconnect
      { playerId := 10000, token := ascii "token_10000" }) ⟨30 * 10 ^ 9, 0⟩) s' ∧
    t.server.Accepts s' 1 10000 roomId := by
  obtain ⟨tr, t, h, hclock, hl, hr, hlife, hno, halive, htoken⟩ := TimedServer.exists_run 0
    (Q := fun tr t => t.clock = 30 * 10 ^ 9 ∧
      (history (tr.take 2 ++ tr.drop 2)).logins < 2 ^ 31 - 10000 ∧
      (history (tr.take 2 ++ tr.drop 2)).roomsCreated < 2 ^ 31 - 1 ∧
      (history (tr.drop 2)).life 10000 = .offline (5 * 10 ^ 9) ∧
      (∀ x ∈ history (tr.take 2), (x.1.act x.2).fate x.1.core 10000 = none) ∧ t.server.alive 1 ∧
      (10000, ascii "token_10000") ∈ t.server.issued.map Prod.snd)
    [.handle (.accept 0 {}), .handle (.request 0 (.login { username := [0x61] }) {}),
      .handle (.close 0 ⟨5 * 10 ^ 9, 0⟩), .reconnectTimeoutCheck [10000] ⟨30 * 10 ^ 9, 0⟩,
      .handle (.accept 1 ⟨30 * 10 ^ 9, 0⟩)] (by decide +kernel)
  rw [← List.take_append_drop 2 tr] at h
  have hnot : ∀ x ∈ history (tr.take 2), ¬ Resumes x 10000 := fun x hx hres => by
    obtain ⟨sid, token, hact⟩ := hres.act_eq
    have hnone := hno x hx
    rw [hact, Act.fate, if_pos rfl] at hnone
    cases hnone
  have hlate : t.clock < 5 * 10 ^ 9 + 31 * 10 ^ 9 := hclock ▸ by norm_num
  have hreq : toInt ({ playerId := 10000, token := ascii "token_10000" } : ReconnectReq).playerId =
      10000 := by decide
  obtain ⟨s', roomId, hs', hacc⟩ :=
    resumed_in_time h hl hr hlife hnot hlate halive hreq htoken ⟨30 * 10 ^ 9, 0⟩
  exact ⟨t, s', roomId, hclock, hs', hacc⟩

end GameServer
