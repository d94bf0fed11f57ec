/-
# The server and its clients

The server with its timers and any number of processes of `client/ClientSimulator.cpp`, each with a
connection, or two once it has come back.  On each connection the requests are handled in the order
in which they were written, and the messages read in the order in which they were sent, whole and
after any time; nothing says that they are handled or read at all.

A run of a deployment is a run of the server with its timers (`Deployment.timed_run`).  What its
clients write there is what `Conforms` asks for, unless it is handled on a session that was closed
meanwhile (`deployment_conforms`): `Deployment.Honest` says why, connection by connection.
-/

import GameServer.Client.ClientProcess
import GameServer.Timers

namespace GameServer

/-- The server, its clients, and what has passed on each connection: the requests written, each
with its time, of which the server has handled the first `handled`, and the times at which the
client has read the messages sent to the session. -/
structure Deployment where
  server : TimedServer
  clock : Time
  client : ℕ → ClientProcess := fun _ => {}
  connected : List SessionId := []
  wrote : SessionId → List (Time × ClientRequest) := fun _ => []
  handled : SessionId → ℕ := fun _ => 0
  reads : SessionId → List Time := fun _ => []

inductive DeploymentEvent
  | client (i : ℕ) (e : ClientEvent) (now : Time)
  /-- The server handles the next request of a connection. -/
  | serve (sid : SessionId) (req : Request) (now : Instant)
  /-- Anything else that the server does. -/
  | server (e : TimedEvent)

/-- The time an event comes at, if it reads a clock. -/
def TimedEvent.readsClock : TimedEvent → Option Time
  | .handle e => e.time
  | .timeoutCheck _ now | .reconnectTimeoutCheck _ now => some now.steady

/-- The session that an event reads a message of. -/
def ClientEvent.readsFrom : ClientEvent → Option SessionId
  | .read sid _ => some sid
  | _ => none

/-- The event of the server that an event is. -/
def DeploymentEvent.served : DeploymentEvent → Option TimedEvent
  | .client .. => none
  | .serve sid req now => some (.handle (.request sid req now))
  | .server e => some e

namespace Deployment

def start (now : Time) : Deployment where
  server := .start now
  clock := now

/-- The messages sent to a session so far. -/
def sentTo (w : Deployment) (sid : SessionId) : List Response := w.server.server.sentTo sid

def act (w : Deployment) (i : ℕ) (e : ClientEvent) (now : Time) : Deployment :=
  let c := (w.client i).step now e
  { w with
    clock := now
    client := Function.update w.client i c.1
    connected := w.connected ++ (e.connects (w.client i)).toList
    wrote := fun sid => w.wrote sid ++ if c.1.socket = some sid then c.2.map (Prod.mk now) else []
    reads := fun sid => w.reads sid ++ if e.readsFrom = some sid then [now] else [] }

@[simp]
theorem client_act_self (w : Deployment) (i : ℕ) (e : ClientEvent) (now : Time) :
    (w.act i e now).client i = ((w.client i).step now e).1 := Function.update_self ..

theorem client_act_of_ne (w : Deployment) {i j : ℕ} (h : j ≠ i) (e : ClientEvent) (now : Time) :
    (w.act i e now).client j = w.client j := Function.update_of_ne h ..

def step (w : Deployment) : DeploymentEvent → Outcome Deployment
  | .client i e now => .ok (w.act i e now)
  | .serve sid req now =>
    (w.server.step (.handle (.request sid req now))).map fun server => { w with
      server := server
      clock := now.steady
      handled := Function.update w.handled sid (w.handled sid + 1) }
  | .server e => (w.server.step e).map fun server => { w with
      server := server
      clock := e.readsClock.getD w.clock }

/-- The events that can come next: a connection is new and made before it is accepted, a message
that is read is the next one sent, and a request that is handled is the next one written. -/
def Enabled (w : Deployment) : DeploymentEvent → Prop
  | .client i e now => w.clock ≤ now ∧ (w.client i).Enabled now e ∧
      (∀ sid ∈ e.connects (w.client i), sid ∉ w.connected) ∧
      ∀ sid msg, e = .read sid msg → (w.sentTo sid)[(w.reads sid).length]? = some msg
  | .serve sid req now => w.clock ≤ now.steady ∧
      w.server.Enabled (.handle (.request sid req now)) ∧
      ∃ x ∈ (w.wrote sid)[w.handled sid]?, req.written = some x.2
  | .server e => (∀ time ∈ e.readsClock, w.clock ≤ time) ∧ w.server.Enabled e ∧
      (∀ sid req now, e ≠ .handle (.request sid req now)) ∧
      ∀ sid now, e = .handle (.accept sid now) → sid ∈ w.connected

end Deployment

/-- The deployment, started at the time `now`. -/
def deployment (now : Time) : Transition.System Deployment DeploymentEvent where
  init := .start now
  step w e w' := w.Enabled e ∧ w.step e = .ok w'

namespace Deployment

/-- The run of the server with its timers. -/
def timedHistory (tr : List (Deployment × DeploymentEvent)) : List (TimedServer × TimedEvent) :=
  tr.filterMap fun x => x.2.served.map fun e => (x.1.server, e)

/-- The events of the server. -/
def history (tr : List (Deployment × DeploymentEvent)) : History :=
  TimedServer.history (timedHistory tr)

/-- What an event does. -/
inductive Stepped (start : Time) (w : Deployment) : DeploymentEvent → Deployment → Prop
  | client {i : ℕ} {e : ClientEvent} {now : Time} (hclock : w.clock ≤ now)
      (hen : (w.client i).Enabled now e)
      (hnew : ∀ sid ∈ e.connects (w.client i), sid ∉ w.connected)
      (hread : ∀ sid msg, e = .read sid msg → (w.sentTo sid)[(w.reads sid).length]? = some msg) :
      Stepped start w (.client i e now) (w.act i e now)
  | serve {sid : SessionId} {req : Request} {now : Instant} {t' : TimedServer}
      {x : Time × ClientRequest} (hclock : w.clock ≤ now.steady)
      (hs : (timed start).step w.server (.handle (.request sid req now)) t')
      (hx : (w.wrote sid)[w.handled sid]? = some x) (hreq : req.written = some x.2) :
      Stepped start w (.serve sid req now) { w with
        server := t'
        clock := now.steady
        handled := Function.update w.handled sid (w.handled sid + 1) }
  | server {e : TimedEvent} {t' : TimedServer} (hclock : ∀ time ∈ e.readsClock, w.clock ≤ time)
      (hs : (timed start).step w.server e t') (hreq : ∀ sid req now, e ≠ .handle (.request sid req now))
      (haccept : ∀ sid now, e = .handle (.accept sid now) → sid ∈ w.connected) :
      Stepped start w (.server e) { w with server := t', clock := e.readsClock.getD w.clock }

theorem stepped_of_step {start : Time} {w w' : Deployment} {e : DeploymentEvent}
    (h : (deployment start).step w e w') : Stepped start w e w' := by
  obtain ⟨hen, hs⟩ := h
  cases e with
  | client i e now =>
    obtain ⟨hclock, hen, hnew, hread⟩ := hen
    obtain rfl := Except.ok.inj hs
    exact .client hclock hen hnew hread
  | serve sid req now =>
    obtain ⟨hclock, hen, x, hx, hreq⟩ := hen
    obtain ⟨t', ht', rfl⟩ := TimedServer.map_eq_ok hs
    exact .serve hclock ⟨hen, ht'⟩ hx hreq
  | server e =>
    obtain ⟨hclock, hen, hreq, haccept⟩ := hen
    obtain ⟨t', ht', rfl⟩ := TimedServer.map_eq_ok hs
    exact .server hclock ⟨hen, ht'⟩ hreq haccept

/-- **A run of a deployment is a run of its server.** -/
theorem timed_run {start : Time} {tr : List (Deployment × DeploymentEvent)} {w : Deployment}
    (h : (deployment start).Run tr w) : (timed start).Run (timedHistory tr) w.server := by
  refine h.simulate (N := timed start) server (fun _ e => e.served) rfl fun {tr' w e w'} _ _ hs => ?_
  cases stepped_of_step hs with
  | client => rfl
  | serve _ ht _ _ => exact ht
  | server _ ht _ _ => exact ht

theorem server_run {start : Time} {tr : List (Deployment × DeploymentEvent)} {w : Deployment}
    (h : (deployment start).Run tr w) : GameServer.server.Run (history tr) w.server.server :=
  TimedServer.run_history (timed_run h)

/-- The history of a longer run. -/
theorem history_cons (w : Deployment) (e : DeploymentEvent) (tr : List (Deployment × DeploymentEvent)) :
    history ((w, e) :: tr) = (e.served.map fun e => w.server.served e).getD [] ++ history tr := by
  cases e <;> rfl

/-! ### Replays -/

/-- The event can come next, decided by computation. -/
def enables (w : Deployment) : DeploymentEvent → Bool
  | .client i e now => decide (w.clock ≤ now ∧ (w.client i).Enabled now e) &&
      (e.connects (w.client i)).all (fun sid => decide (sid ∉ w.connected)) &&
      match e with
      | .read sid msg => decide ((w.sentTo sid)[(w.reads sid).length]? = some msg)
      | _ => true
  | .serve sid req now => decide (w.clock ≤ now.steady) &&
      w.server.enables (.handle (.request sid req now)) &&
      (w.wrote sid)[w.handled sid]?.any fun x => decide (req.written = some x.2)
  | .server e => e.readsClock.all (fun time => decide (w.clock ≤ time)) && w.server.enables e &&
      match e with
      | .handle (.request ..) => false
      | .handle (.accept sid _) => decide (sid ∈ w.connected)
      | _ => true

theorem enabled_of_enables {w : Deployment} {e : DeploymentEvent} (h : w.enables e = true) :
    w.Enabled e := by
  cases e with
  | client i e now =>
    obtain ⟨h, hread⟩ := Bool.and_eq_true_iff.1 h
    obtain ⟨hen, hnew⟩ := Bool.and_eq_true_iff.1 h
    obtain ⟨hclock, hen⟩ := of_decide_eq_true hen
    refine ⟨hclock, hen, fun sid hsid => ?_, fun sid msg he => ?_⟩
    · rw [Option.mem_def.1 hsid] at hnew
      exact of_decide_eq_true hnew
    · subst he
      exact of_decide_eq_true hread
  | serve sid req now =>
    obtain ⟨h, hx⟩ := Bool.and_eq_true_iff.1 h
    obtain ⟨hclock, hen⟩ := Bool.and_eq_true_iff.1 h
    obtain ⟨x, hx, hreq⟩ := (Option.any_eq_true ..).1 hx
    exact ⟨of_decide_eq_true hclock, TimedServer.enabled_of_enables hen, x, hx, of_decide_eq_true hreq⟩
  | server e =>
    obtain ⟨h, hkind⟩ := Bool.and_eq_true_iff.1 h
    obtain ⟨hclock, hen⟩ := Bool.and_eq_true_iff.1 h
    refine ⟨fun time htime => ?_, TimedServer.enabled_of_enables hen, fun sid req now he => ?_,
      fun sid now he => ?_⟩
    · rw [Option.mem_def.1 htime] at hclock
      exact of_decide_eq_true hclock
    · subst he
      cases hkind
    · subst he
      exact of_decide_eq_true hkind

/-- A replay that ends as `Q` says is a run that does. -/
theorem exists_run (start : Time) {Q : List (Deployment × DeploymentEvent) → Deployment → Prop}
    [∀ tr w, Decidable (Q tr w)] (es : List DeploymentEvent)
    (h : (Transition.System.replay (fun w e => if enables w e then (w.step e).toOption else none) []
      (.start start) es).any (fun x => decide (Q x.1 x.2)) = true) :
    ∃ tr w, (deployment start).Run tr w ∧ Q tr w := by
  refine Transition.System.exists_run_of_replay (M := deployment start) (fun w e w' hw => ?_) es h
  split_ifs at hw with hen
  refine ⟨enabled_of_enables hen, ?_⟩
  cases hs : w.step e with
  | error c =>
    rw [hs] at hw
    cases hw
  | ok w₁ =>
    rw [hs] at hw
    rw [Option.some.inj hw]

end Deployment
end GameServer
