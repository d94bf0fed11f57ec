/-
# Clients that go silent

When all clients that follow the simulator have gone silent, the two checks of `Timers.lean` clear
everything: within 21 seconds the idle check has closed the sessions that are registered, and within
36 more the reconnect check has removed their players, each a little later if handlers come late
(`drained_in_time`).  A session that never logged in stays, but nothing hangs on it.

That it does not take longer rests on the times of the closes: from the first bound on the idle
check has nothing left to close (`Silent.closed_le`), so everybody who is `Offline` has been so for
a while.
-/

import GameServer.Reclamation
import GameServer.Timers

namespace GameServer

/-- The time at which something came from a socket. -/
def TimedEvent.heard : TimedEvent → Option Time
  | .handle e => e.time
  | .timeoutCheck _ _ | .reconnectTimeoutCheck _ _ => none

namespace TimedServer

/-- The sockets have been silent since `a`: later events are the checks, and releases. -/
def Silent (a : Time) (tr : List (TimedServer × TimedEvent)) : Prop :=
  ∀ x ∈ tr, ∀ time ∈ x.2.heard, time ≤ a

/-- No handler of the run ran later than `late` after a timer was due. -/
def Punctual (late : Time) (tr : List (TimedServer × TimedEvent)) : Prop :=
  ∀ x ∈ tr, x.1.Prompt late (x.1.time x.2)

instance (a : Time) (tr : List (TimedServer × TimedEvent)) : Decidable (Silent a tr) :=
  inferInstanceAs (Decidable (∀ x ∈ tr, ∀ time ∈ x.2.heard, time ≤ a))

instance (late : Time) (tr : List (TimedServer × TimedEvent)) : Decidable (Punctual late tr) :=
  inferInstanceAs (Decidable (∀ x ∈ tr, x.1.Prompt late (x.1.time x.2)))

end TimedServer

/-- Conforming clients have open sessions registered only. -/
theorem connected_open_of_conforms {tr : History} {s : Server} (h : server.Run tr s)
    (hc : Conforms tr) : ∀ sid ∈ s.connectionManager.sessions, s.core.Open sid := by
  refine connected_open h ?_
  induction h with
  | nil => exact fun x hx => absurd hx List.not_mem_nil
  | @cons tr s s' e _ hs ih =>
    refine List.forall_mem_cons.2 ⟨fun sid hintro => ?_, ih hc.2.2⟩
    obtain ⟨req, now, rfl⟩ := Event.request_of_introduces (Server.introduces_of_act hintro)
    exact Server.isOpen_of_alive hs.1.1 hc.1

namespace TimedServer

variable {start a late : Time} {tr : List (TimedServer × TimedEvent)} {t : TimedServer}

/-- The activity of the run was before the silence. -/
theorem Silent.activity (h : Silent a tr) :
    ∀ x ∈ history tr, ∀ sid time, x.2.activityOn sid = some time → time ≤ a := by
  intro x hx sid time hactive
  obtain ⟨y, hy, hxy⟩ := List.mem_flatMap.1 hx
  have htime := Event.time_of_activityOn hactive
  cases hye : y.2 with
  | handle e =>
    rw [hye, served, List.mem_singleton] at hxy
    subst hxy
    exact h y hy time (by rw [hye]; exact htime)
  | timeoutCheck order now =>
    rw [hye] at hxy
    obtain ⟨sid', -, heq⟩ := Server.mem_closes hxy
    rw [heq] at hactive
    cases hactive
  | reconnectTimeoutCheck order now =>
    rw [hye, served, List.mem_singleton] at hxy
    subst hxy
    cases hactive

/-- **After a silence no registered session is open.** -/
theorem Silent.registered (h : (timed start).Run tr t) (hsilent : Silent a tr) {now : Time}
    (hprompt : t.Prompt late now) (hnow : a + (21 * 10 ^ 9 + late) ≤ now) {sid : SessionId}
    (hopen : t.server.core.Open sid) : sid ∉ t.server.connectionManager.sessions := by
  intro hconn
  have hknown : (t.server.core.closedFlag sid).isSome := by
    rw [Core.isOpen_iff.1 hopen]
    rfl
  obtain ⟨x, hx, since, hactive, hsince⟩ := Server.active_of_run (run_history h) hknown
  have hle := hsilent.activity x hx sid since hactive
  have hlt := (fresh_silent h).lt ⟨hopen, hconn, rfl⟩ hprompt.heartbeat
  simp only [silent, PERIOD, hsince, Option.getD_some] at hlt
  linarith

/-- **After a silence no session is closed**, but by the clients that never logged in. -/
theorem Silent.closed_le (h : (timed start).Run tr t) (hlate : 0 ≤ late)
    (hc : Conforms (history tr)) (hsilent : Silent a tr) (hpunctual : Punctual late tr) :
    ∀ x ∈ history tr, ∀ sid now, x.2 = .close sid now → now.steady ≤ a + (21 * 10 ^ 9 + late) := by
  induction h with
  | nil => exact fun x hx => absurd hx List.not_mem_nil
  | @cons tr t t' e hrun hs ih =>
    rw [Silent, List.forall_mem_cons] at hsilent
    rw [Punctual, List.forall_mem_cons] at hpunctual
    have hc' : Conforms (history tr) := conforms_of_append hc
    intro x hx sid now hclose
    rw [history, List.flatMap_cons, List.mem_append] at hx
    rcases hx with hx | hx
    · cases e with
      | handle e =>
        rw [served, List.mem_singleton] at hx
        subst hx
        obtain rfl : e = .close sid now := hclose
        have hle := hsilent.1 now.steady rfl
        linarith
      | timeoutCheck order now₀ =>
        obtain ⟨sid₀, hsid₀, heq⟩ := Server.mem_closes hx
        obtain ⟨-, rfl⟩ := Event.close.inj (heq.symm.trans hclose)
        have hserver := run_history hrun
        cases stepped_of_step hs with
        | timeoutCheck _ horder _ =>
          have hconn := (alive_of_idle hserver horder now₀ sid₀ hsid₀).1
          have hopen := connected_open_of_conforms hserver hc' sid₀ hconn
          by_contra hgt
          exact Silent.registered hrun hsilent.2 hpunctual.1 (not_le.1 hgt).le hopen hconn
      | reconnectTimeoutCheck order now₀ =>
        rw [served, List.mem_singleton] at hx
        subst hx
        cases hclose
    · exact ih hc' hsilent.2 hpunctual.2 x hx sid now hclose

/-- **After a longer silence nobody is held for a reconnect**: whoever was disconnected was so by the
first bound. -/
theorem Silent.not_offline (h : (timed start).Run tr t) (hc : Conforms (history tr))
    (hl : (history tr).logins < 2 ^ 31 - 10000) (hlate : 0 ≤ late) (hpunctual : Punctual late tr)
    (hsilent : Silent a tr) {now : Time} (hprompt : t.Prompt late now)
    (hnow : a + (57 * 10 ^ 9 + 2 * late) ≤ now) (p : PlayerId) : ¬ t.server.core.Offline p := by
  intro hp
  obtain ⟨since, hsince⟩ := Core.offline_iff.1 hp
  have hlt := (fresh_offline h).lt hsince hprompt.checkReconnect
  obtain ⟨x, hx, hclosed⟩ := (Accounted.of_run (run_history h) hc hl).held.closed hsince
  obtain ⟨sid, time, hclose, rfl⟩ := Server.closedAt_act hclosed
  have hle := Silent.closed_le h hlate hc hsilent hpunctual x hx sid time hclose
  simp only [offline, PERIOD] at hlt
  linarith

end TimedServer

/-- Nobody is online when no session is registered. -/
theorem Introduced.players_eq_empty {tr : History} {s : Server} {L : Ledger}
    (h : Introduced s.core L) (hrun : server.Run tr s)
    (hnone : ∀ sid, sid ∉ s.connectionManager.sessions) : s.playerManager.players = ∅ :=
  Table.eq_empty_of_lookup fun p => by
    cases hp : s.playerManager.players.lookup p with
    | none => rfl
    | some sid =>
      obtain ⟨hp0, hbound⟩ := h.player hp
      exact absurd (registered_of_bound hrun hp0 hbound) (hnone sid)

/-- A room has a member, and its members are mapped to it. -/
theorem Formed.rooms_eq_empty {c : Core} (h : Formed c) (hm : c.MembersMapped)
    (hmap : ∀ p, p ∉ c.roomManager.playerRoomMap) : c.roomManager.rooms = ∅ :=
  Table.eq_empty_of_lookup fun r => by
    cases hroom : c.roomManager.rooms.lookup r with
    | none => rfl
    | some o =>
      obtain ⟨room, rfl, hform⟩ := h.room hroom
      obtain ⟨p, hp⟩ := List.exists_mem_of_ne_nil _ hform.ne_nil
      have hlk := hm r room ((RoomManager.getRoom_eq_some ..).2 hroom) p hp
      exact absurd (Finmap.mem_of_lookup_eq_some hlk) (hmap p)

open TimedServer in
/-- **Nothing is left of clients that have gone silent.**  In a run with timers of clients that
follow the simulator, in which no handler ran later than `late` after it was due and nothing came
from a socket after `a`, from `a` and 57 seconds and twice `late` on nobody is connected, online,
waiting, in a room or held for a reconnect. -/
theorem drained_in_time {start a late now : Time} {tr : List (TimedServer × TimedEvent)}
    {t : TimedServer} (h : (timed start).Run tr t) (hc : Conforms (history tr))
    (hl : (history tr).logins < 2 ^ 31 - 10000) (hr : (history tr).roomsCreated < 2 ^ 31 - 1)
    (hlate : 0 ≤ late) (hpunctual : Punctual late tr) (hsilent : Silent a tr)
    (hprompt : t.Prompt late now) (hnow : a + (57 * 10 ^ 9 + 2 * late) ≤ now) :
    t.server.connectionManager.connectionCount = 0 ∧ t.server.playerManager.onlineCount = 0 ∧
      t.server.matchQueue.size = 0 ∧ t.server.roomManager.roomCount = 0 ∧
      t.server.roomManager.playerRoomMap = ∅ ∧ t.server.playerStateManager.states = ∅ := by
  have hrun := run_history h
  have ha := Accounted.of_run hrun hc hl
  have hlink := Linked.of_run hrun hl hr
  have hnone : ∀ sid, sid ∉ t.server.connectionManager.sessions := fun sid hconn => by
    have hopen := connected_open_of_conforms hrun hc sid hconn
    exact Silent.registered h hsilent hprompt (by linarith) hopen hconn
  have hplayers : t.server.playerManager.players = ∅ := ha.introduced.players_eq_empty hrun hnone
  have hgone : ∀ p, p ∉ t.server.playerManager.players := fun p =>
    hplayers ▸ Finmap.notMem_empty
  have hoff := Silent.not_offline h hc hl hlate hpunctual hsilent hprompt hnow
  have hmap : ∀ p, p ∉ t.server.roomManager.playerRoomMap := fun p hp =>
    hoff p (hlink.offline hp (hgone p))
  have hqueue : t.server.matchQueue.queue = [] :=
    List.eq_nil_iff_forall_not_mem.2 fun p hp => hgone p (ha.queued.queue hp).1
  have hrooms : t.server.roomManager.rooms = ∅ :=
    (Formed.of_run hrun).rooms_eq_empty ha.members hmap
  refine ⟨?_, ?_, ?_, ?_, ?_, ?_⟩
  · rw [ConnectionManager.connectionCount, Finset.card_eq_zero, Finset.eq_empty_iff_forall_notMem]
    exact hnone
  · rw [PlayerManager.onlineCount, hplayers, Table.size_empty]
  · rw [MatchQueue.size, hqueue, List.length_nil]
  · rw [RoomManager.roomCount, hrooms, Table.size_empty]
  · exact Table.eq_empty_of_lookup fun p => (Table.not_mem_iff ..).1 (hmap p)
  · refine Table.eq_empty_of_lookup fun p => (Table.not_mem_iff ..).1 fun hp => ?_
    exact (ha.held.held hp).elim (hoff p) (hgone p)

open TimedServer in
/-- Two matched players fall silent at once, with checks that come up to 15 seconds late: the first
closes their sessions, the third removes them. -/
theorem drained_in_time_pair : ∃ tr t, (timed 0).Run tr t ∧ t.clock = 80 * 10 ^ 9 ∧
    (history tr).roomsCreated = 1 ∧ t.server.connectionManager.connectionCount = 0 ∧
    t.server.roomManager.roomCount = 0 ∧ t.server.playerStateManager.states = ∅ := by
  obtain ⟨tr, t, h, hclock, hc, hl, hr, hpunctual, hsilent, hprompt⟩ := TimedServer.exists_run 0
    (Q := fun tr t => t.clock = 80 * 10 ^ 9 ∧ Conforms (history tr) ∧
      (history tr).logins < 2 ^ 31 - 10000 ∧ (history tr).roomsCreated = 1 ∧
      Punctual (15 * 10 ^ 9) tr ∧ Silent 0 tr ∧ t.Prompt (15 * 10 ^ 9) (90 * 10 ^ 9))
    (Server.pairUp.map .handle ++
      [.timeoutCheck [0, 1] ⟨20 * 10 ^ 9, 0⟩, .reconnectTimeoutCheck [10000, 10001] ⟨20 * 10 ^ 9, 0⟩,
        .timeoutCheck [] ⟨40 * 10 ^ 9, 0⟩, .reconnectTimeoutCheck [10001, 10000] ⟨40 * 10 ^ 9, 0⟩,
        .timeoutCheck [] ⟨60 * 10 ^ 9, 0⟩, .reconnectTimeoutCheck [10000, 10001] ⟨60 * 10 ^ 9, 0⟩,
        .timeoutCheck [] ⟨80 * 10 ^ 9, 0⟩, .reconnectTimeoutCheck [] ⟨80 * 10 ^ 9, 0⟩])
    (by decide +kernel)
  obtain ⟨hconn, -, -, hrooms, -, hstates⟩ := drained_in_time h hc hl (by rw [hr]; norm_num)
    (by norm_num) hpunctual hsilent hprompt (by norm_num)
  exact ⟨tr, t, h, hclock, hr, hconn, hrooms, hstates⟩

end GameServer
