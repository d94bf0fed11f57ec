/-
# Which idle connections are reclaimed

Every 5 seconds `check_timeout` closes the sessions it tracks that have been idle for more
than 15 whole seconds.  What it tracks is `ConnectionManager::sessions_`, where `do_accept`
does not put a new session: a login and a reconnect do.  So a connection that never logs in
is never closed by it, however long it is idle (`idle_reclaimed_iff`).

The check itself returns: the callback of each close leaves what the next one needs.
-/

import GameServer.Connectivity
import GameServer.OnlinePlayers

namespace GameServer
namespace Server

variable {s s' : Server} {now : Instant}

theorem act_close (s : Server) (sid : SessionId) (now : Instant) :
    s.act (.close sid now) = .idle ∨ s.act (.close sid now) = .close sid now.steady := by
  simp only [act]
  split_ifs
  · exact .inl rfl
  · exact .inr rfl

/-- A close leaves the times of the last activity and every session object. -/
theorem close_frame {sid : SessionId} (h : server.step s (.close sid now) s') :
    s'.lastActive = s.lastActive ∧ ∀ sid', s.core.Alive sid' → s'.core.Alive sid' := by
  constructor
  · have h : s.close sid now = .ok s' := h.2
    unfold close at h
    split_ifs at h
    · rw [← Except.ok.inj h]
    · obtain ⟨rm, -, rfl⟩ := closeCallback_ok rfl h
      rfl
  · refine fun sid' => (step_core h).alive fun hact => ?_
    rcases s.act_close sid now with he | he <;> rw [he] at hact <;> cases hact

/-- **What closing several sessions does**: these are closed, the others are as they were. -/
theorem closeAll_frame {sids : List SessionId} (halive : ∀ sid ∈ sids, s.core.Alive sid)
    (h : s.closeAll now sids = .ok s') : s'.lastActive = s.lastActive ∧
      ∀ sid, s'.core.closedFlag sid = if sid ∈ sids then some true else s.core.closedFlag sid := by
  induction sids generalizing s with
  | nil =>
    obtain rfl := Except.ok.inj h
    exact ⟨rfl, fun sid => (if_neg List.not_mem_nil).symm⟩
  | cons sid₀ sids ih =>
    rw [List.forall_mem_cons] at halive
    unfold closeAll at h
    split at h
    · rename_i s₁ hclose
      have hstep : server.step s (.close sid₀ now) s₁ := ⟨(s.alive_iff sid₀).2 halive.1, hclose⟩
      obtain ⟨hactive, hkeep⟩ := close_frame hstep
      obtain ⟨hactive', hflag⟩ := ih (fun sid hsid => hkeep sid (halive.2 sid hsid)) h
      refine ⟨hactive'.trans hactive, fun sid => ?_⟩
      rw [hflag, closedFlag_step hstep, Event.setsClosed]
      by_cases hsid : sid = sid₀
      · rw [if_pos hsid, Option.some_or, ite_self, if_pos (hsid ▸ List.mem_cons_self ..)]
      · rw [if_neg hsid, Option.none_or]
        simp only [List.mem_cons, hsid, false_or]
    · cases h

/-- **Closing several sessions returns.** -/
theorem closeAll_isOk {sids : List SessionId} (hw : WellBound s.core) (hn : Numbered s.core)
    (hl : Linked s.core) (halive : ∀ sid ∈ sids, s.core.Alive sid) :
    ∃ s', s.closeAll now sids = .ok s' := by
  induction sids generalizing s with
  | nil => exact ⟨s, rfl⟩
  | cons sid sids ih =>
    rw [List.forall_mem_cons] at halive
    obtain ⟨s₁, hclose⟩ : ∃ s₁, s.close sid now = .ok s₁ := by
      unfold close
      split_ifs
      · exact ⟨s, rfl⟩
      · let s₀ := s.setSession sid fun session => { session with closed := true }
        obtain ⟨rm, hrm⟩ := hl.mark_isOk (s₀.session sid).playerId .offline
        have hrm : s₀.roomManager.markPlayerDisconnected (s₀.session sid).playerId = .ok rm := hrm
        show ∃ s₁, s₀.closeCallback sid now = .ok s₁
        unfold closeCallback
        dsimp only
        rw [hrm]
        exact ⟨_, rfl⟩
    have hstep : server.step s (.close sid now) s₁ := ⟨(s.alive_iff sid).2 halive.1, hclose⟩
    have hcore := step_core hstep
    have hkeep := (close_frame hstep).2
    rw [closeAll, hclose]
    refine ih (hw.step ?_ hcore) (hn.step ?_ hcore) (hl.step hw hn hcore)
      fun sid' hsid' => hkeep sid' (halive.2 sid' hsid')
    · rcases s.act_close sid now with he | he <;> rw [he] <;> exact fun h => by cases h
    · rcases s.act_close sid now with he | he <;> rw [he] <;> exact fun h => by cases h

end Server

/-- **When idle connections are reclaimed.**  Take any reachable state and any time.  The check
returns, as long as neither counter wraps around.  After it every open session has been active
within the last 15 whole seconds exactly when each one that was open and idle for longer had
logged in or reconnected. -/
theorem idle_reclaimed_iff {tr : History} {s : Server} (h : server.Run tr s)
    {order : List SessionId} (horder : order.toFinset = s.connectionManager.sessions)
    (now : Instant) :
    (tr.logins < 2 ^ 31 - 10000 → tr.roomsCreated < 2 ^ 31 - 1 →
        ∃ s', s.checkTimeout order now = .ok s') ∧
      ∀ {s'}, s.checkTimeout order now = .ok s' →
        ((∀ sid, s'.core.Open sid → s'.idle now.steady 15 sid = false) ↔
          ∀ sid, s.core.Open sid → s.idle now.steady 15 sid = true → tr.Introduced sid) := by
  have halive : ∀ sid ∈ order.filter (s.idle now.steady 15), s.core.Alive sid := fun sid hsid => by
    refine alive_of_connected h sid ?_
    rw [← horder, List.mem_toFinset]
    exact List.mem_of_mem_filter hsid
  constructor
  · intro hl hr
    exact Server.closeAll_isOk (WellBound.of_run h hl) (Numbered.of_run h hr) (Linked.of_run h hl hr)
      halive
  · intro s' hs
    obtain ⟨hactive, hflag⟩ := Server.closeAll_frame halive hs
    have hidle : ∀ sid, s'.idle now.steady 15 sid = s.idle now.steady 15 sid := fun sid => by
      rw [Server.idle, hactive, Server.idle]
    -- The sessions left open are those that were open and not closed by the check.
    have hopen : ∀ sid, s'.core.Open sid ↔
        s.core.Open sid ∧ ¬ (sid ∈ order ∧ s.idle now.steady 15 sid = true) := fun sid => by
      rw [Core.isOpen_iff, hflag, ← List.mem_filter, Core.isOpen_iff]
      split_ifs with hsid <;> simp [hsid]
    have hmem : ∀ sid, s.core.Open sid → (sid ∈ order ↔ tr.Introduced sid) := fun sid ho => by
      rw [← List.mem_toFinset, horder]
      exact mem_connected_iff h ho
    constructor
    · intro hall sid ho hi
      by_contra hnot
      have ho' := (hopen sid).2 ⟨ho, fun hsid => hnot ((hmem sid ho).1 hsid.1)⟩
      have hlong := hall sid ho'
      rw [hidle, hi] at hlong
      cases hlong
    · intro hC sid ho'
      obtain ⟨ho, hnot⟩ := (hopen sid).1 ho'
      rw [hidle, Bool.eq_false_iff]
      exact fun hi => hnot ⟨(hmem sid ho).2 (hC sid ho hi), hi⟩

/-- A client logs in and is silent for 16 seconds: the check closes its session. -/
theorem idle_reclaimed_iff_login : ∃ tr s s', server.Run tr s ∧ s.core.Open 0 ∧
    s.checkTimeout [0] { steady := 16 * 10 ^ 9 } = .ok s' ∧
    ∀ sid, s'.core.Open sid → s'.idle (16 * 10 ^ 9) 15 sid = false := by
  obtain ⟨tr, s, h, hopen, hkeys, hintro, hconn, hl, hr⟩ := Server.exists_run
    (Q := fun tr s => s.core.Open 0 ∧ s.sessions.keys = {0} ∧ tr.Introduced 0 ∧
      s.connectionManager.sessions = {0} ∧ tr.logins < 2 ^ 31 - 10000 ∧
      tr.roomsCreated < 2 ^ 31 - 1)
    [.accept 0 {}, .request 0 (.login { username := [0x61] }) {}] (by decide +kernel)
  have horder : [0].toFinset = s.connectionManager.sessions := by rw [hconn]; rfl
  obtain ⟨hreturns, hiff⟩ := idle_reclaimed_iff h horder { steady := 16 * 10 ^ 9 }
  obtain ⟨s', hs'⟩ := hreturns hl hr
  refine ⟨tr, s, s', h, hopen, hs', (hiff hs').2 fun sid ⟨ses, hses, _⟩ _ => ?_⟩
  have hmem : sid ∈ s.sessions.keys := Finmap.mem_keys.2 (Finmap.mem_of_lookup_eq_some hses)
  rw [hkeys, Finset.mem_singleton] at hmem
  exact hmem ▸ hintro

/-- **A connection that never logs in is never reclaimed.**  It is accepted, sends nothing,
and is still open after the check an hour later. -/
theorem idle_connection_kept : ∃ tr s s', server.Run tr s ∧ s.connectionManager.sessions = ∅ ∧
    s.checkTimeout [] { steady := 3600 * 10 ^ 9 } = .ok s' ∧ s'.core.Open 0 ∧
    s'.idle (3600 * 10 ^ 9) 15 0 = true := by
  obtain ⟨tr, s, h, hconn, hopen, hidle⟩ := Server.exists_run
    (Q := fun _ s => s.connectionManager.sessions = ∅ ∧ s.core.Open 0 ∧
      s.idle (3600 * 10 ^ 9) 15 0 = true) [.accept 0 {}] (by decide +kernel)
  exact ⟨tr, s, s, h, hconn, rfl, hopen, hidle⟩

end GameServer
