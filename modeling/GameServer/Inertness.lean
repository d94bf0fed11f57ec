/-
# Messages on a closed session

`Session::close` sets `closed_` and closes the socket, which aborts the read that is
outstanding, unless the socket has carried it out already: then its handler still runs as
for an open session.  It looks at `closed_` before it starts the next read, as `do_write` does
before it starts a write, but not before it appends the bytes and calls `parse_packet`.  So
messages can be dispatched on a closed session, and a login or a reconnect among them puts
the session into `ConnectionManager` and `PlayerManager` after its only close callback has run.
It is enough that the idle check runs between a read and its handler (`late_login_registers`).

`inert_iff` says that this is the only way: a closed session stays without effect in a run
exactly when no read is completed on a closed session with a complete frame in its buffer.
-/

import GameServer.Client.ClientConnection
import GameServer.Sockets

namespace GameServer

open MessageCodec Transition.System

variable {serialize : Response → Bytes}

namespace Loop

/-- The handler of a read that had delivered its bytes before the session was closed, with a
complete frame to cut off. -/
def Late (w : Loop) : LoopEvent → Prop
  | .readDone sid _ _ => (w.io sid).closed = true ∧
      ∃ chunk, (w.io sid).reads.head? = some (some chunk) ∧
        ¬ Incomplete ((w.io sid).recvBuffer ++ chunk)
  | _ => False

instance (w : Loop) : (e : LoopEvent) → Decidable (w.Late e)
  | .readDone sid _ _ =>
    decidable_of_iff ((w.io sid).closed = true ∧ ∃ chunk ∈ (w.io sid).reads.head?.join,
      ¬ Incomplete ((w.io sid).recvBuffer ++ chunk)) (by simp [Late, Option.join_eq_some_iff])
  | .accept .. | .deliver .. | .take .. | .writeDone .. | .close .. | .release _ | .sweep .. =>
    inferInstanceAs (Decidable False)

/-- A close is one that `check_timeout` makes: the session is registered and has been idle for more
than 15 seconds. -/
def TimesOut (w : Loop) : LoopEvent → Prop
  | .close sid now => sid ∈ w.server.connectionManager.sessions ∧
      w.server.idle now.steady 15 sid = true
  | _ => True

instance (w : Loop) : (e : LoopEvent) → Decidable (w.TimesOut e)
  | .close sid now => inferInstanceAs (Decidable (sid ∈ w.server.connectionManager.sessions ∧
      w.server.idle now.steady 15 sid = true))
  | .accept .. | .deliver .. | .take .. | .readDone .. | .writeDone .. | .release _ | .sweep .. =>
    inferInstanceAs (Decidable True)

/-- Closed sessions have no effect in the run: in no state it passes through was a message
dispatched on one or does `ConnectionManager` hold one, and no login or reconnect was accepted
on one. -/
structure Inert (serialize : Response → Bytes) (tr : List (Loop × LoopEvent)) (w : Loop) :
    Prop where
  dispatched : ∀ t ∈ visited tr w, ∀ sid, ∀ x ∈ (t.io sid).dispatched, x.1 = false
  connected : ∀ t ∈ visited tr w, ∀ sid ∈ t.server.connectionManager.sessions,
    t.server.core.Open sid
  introduced : ∀ x ∈ tr, ∀ y ∈ x.1.served serialize x.2, ∀ sid,
    (y.1.act y.2).introduces sid → y.1.core.Open sid

/-- A complete frame in the buffer is a message to dispatch. -/
theorem completes_ne_nil {w : Loop} {sid : SessionId} {e : LoopEvent}
    (h : w.completes sid e ≠ []) : ∃ contents now chunk, e = .readDone sid contents now ∧
      (w.io sid).reads.head? = some (some chunk) ∧
      ¬ Incomplete ((w.io sid).recvBuffer ++ chunk) := by
  cases e with
  | readDone sid' contents now =>
    simp only [completes] at h
    split at h
    · rename_i chunk hread
      split_ifs at h with hs
      · subst hs
        refine ⟨contents, now, chunk, rfl, hread, fun hinc => h ?_⟩
        rw [codec.drain_of_none (decode_eq_none_iff.2 hinc)]
      · exact absurd rfl h
    · exact absurd rfl h
  | _ => exact absurd rfl h

/-- The handler of a late read dispatches on a closed session. -/
theorem exists_dispatched_of_late {w w' : Loop} {e : LoopEvent} (h : (loop serialize).step w e w')
    (hlate : w.Late e) : ∃ sid, ∃ x ∈ (w'.io sid).dispatched, x.1 = true := by
  cases e with
  | readDone sid contents now =>
    obtain ⟨hclosed, chunk, hread, hframe⟩ := hlate
    obtain ⟨m, r, hdec⟩ : ∃ m r, codec.decode ((w.io sid).recvBuffer ++ chunk) = some (m, r) := by
      cases hd : codec.decode ((w.io sid).recvBuffer ++ chunk) with
      | none => exact absurd (decode_eq_none_iff.1 hd) hframe
      | some p => exact ⟨p.1, p.2, rfl⟩
    have hms : m ∈ w.completes sid (.readDone sid contents now) := by
      simp only [completes, hread, if_true, codec.drain_of_some hdec]
      exact List.mem_cons_self ..
    refine ⟨sid, (true, m), ?_, rfl⟩
    rcases (stepSpec_served h).1.dispatched sid with ⟨⟨_, he⟩, -⟩ | hdisp
    · cases he
    · rw [hdisp, hclosed]
      exact List.mem_append_right _ (List.mem_map_of_mem hms)
  | _ => exact hlate.elim

/-- Any other event dispatches on open sessions only. -/
theorem dispatched_open_of_not_late {w w' : Loop} {e : LoopEvent}
    (h : (loop serialize).step w e w') (hlate : ¬ w.Late e)
    (hold : ∀ sid, ∀ x ∈ (w.io sid).dispatched, x.1 = false) :
    ∀ sid, ∀ x ∈ (w'.io sid).dispatched, x.1 = false := by
  intro sid x hx
  rcases (stepSpec_served h).1.dispatched sid with ⟨-, hnil⟩ | hdisp
  · rw [hnil] at hx
    exact absurd hx List.not_mem_nil
  · rw [hdisp] at hx
    rcases List.mem_append.1 hx with hx | hx
    · exact hold sid x hx
    · obtain ⟨m, hm, rfl⟩ := List.mem_map.1 hx
      obtain ⟨contents, now, chunk, rfl, hread, hframe⟩ :=
        completes_ne_nil (List.ne_nil_of_mem hm)
      rw [← Bool.not_eq_true]
      exact fun hclosed => hlate ⟨hclosed, chunk, hread, hframe⟩

/-- Without late reads, logins and reconnects come on open sessions. -/
theorem open_of_introduces {w w' : Loop} {e : LoopEvent} (hsync : w.Synced)
    (h : (loop serialize).step w e w') (hlate : ¬ w.Late e) {y : Server × Event}
    (hy : y ∈ w.served serialize e) {sid : SessionId} (hintro : (y.1.act y.2).introduces sid) :
    y.1.core.Open sid := by
  obtain ⟨hspec, hen⟩ := stepSpec_served h
  obtain ⟨req, now, hreq⟩ := Event.request_of_introduces (Server.introduces_of_act hintro)
  obtain ⟨hflag, hms⟩ := hspec.requests y hy sid req now hreq
  obtain ⟨contents, now', chunk, rfl, hread, hframe⟩ := completes_ne_nil hms
  have halive : y.1.core.Alive sid := by
    have henabled := hen y hy
    rw [hreq] at henabled
    exact (y.1.alive_iff sid).1 henabled.1
  obtain ⟨ses, hses, -⟩ := halive
  have hses' : y.1.core.closedFlag sid = some ses.closed := by
    rw [Core.closedFlag, hses]
    rfl
  have hio : (w.io sid).closed = ses.closed := hsync sid _ (hflag ▸ hses')
  refine ⟨ses, hses, ?_⟩
  rw [← Bool.not_eq_true]
  exact fun hclosed => hlate ⟨hio.trans hclosed, chunk, hread, hframe⟩

end Loop

/-- **A closed session is inert exactly without late reads.**  For every run of the loop, with
any order of completions, closes and sweeps: closed sessions have no effect in it if and only if
no read that the socket had carried out is completed on a session closed in the meantime with a
complete frame in its buffer. -/
theorem inert_iff {tr : List (Loop × LoopEvent)} {w : Loop} (h : (loop serialize).Run tr w) :
    Loop.Inert serialize tr w ↔ ∀ x ∈ tr, ¬ x.1.Late x.2 := by
  have hdisp := h.forall_visited_iff
    (P := fun w : Loop => ∀ sid, ∀ x ∈ (w.io sid).dispatched, x.1 = false)
    (C := fun w e => ¬ w.Late e) (fun sid x hx => absurd hx List.not_mem_nil)
    fun {tr' t e t'} _ _ hP hs => by
      constructor
      · intro hP' hlate
        obtain ⟨sid, x, hx, htrue⟩ := Loop.exists_dispatched_of_late hs hlate
        rw [hP' sid x hx] at htrue
        cases htrue
      · exact fun hlate => Loop.dispatched_open_of_not_late hs hlate hP
  constructor
  · exact fun hinert => hdisp.1 hinert.dispatched
  · intro hlate
    have hintro : ∀ x ∈ tr, ∀ y ∈ x.1.served serialize x.2, ∀ sid,
        (y.1.act y.2).introduces sid → y.1.core.Open sid := by
      intro x hx y hy sid hsid
      obtain ⟨before, after, rfl⟩ := List.append_of_mem hx
      obtain ⟨hrun, t', hs⟩ := h.step_of_suffix (List.suffix_append before (x :: after))
      exact Loop.open_of_introduces (Loop.synced hrun) hs (hlate x hx) hy hsid
    refine ⟨hdisp.2 hlate, fun t ht => ?_, hintro⟩
    obtain ⟨tr', hsuf, hrun, -⟩ := h.forall_visited (P := fun _ _ => True) (fun _ => trivial) t ht
    obtain ⟨trS, hserver, hmem⟩ := Loop.server_run hrun
    refine connected_open hserver fun y hy sid hsid => ?_
    obtain ⟨x, hx, hyx⟩ := hmem y hy
    exact hintro x (hsuf.subset hx) y hyx sid hsid

/-- A player logs in, half a header of the next message is read, and the idle check closes the
session before the handler runs. -/
def lateHeader : List LoopEvent :=
  [.accept 0 {}, .deliver 0 [3, 0, 0, 0, -23, 3, 10, 1, 97],
    .readDone 0 [(.login { username := [97] }, {})] {}, .deliver 0 [3, 0, 0],
    .close 0 { steady := 16 * 10 ^ 9 }, .readDone 0 [] { steady := 16 * 10 ^ 9 }]

/-- Its read is not late. -/
theorem inert_iff_lateHeader : ∃ events : List LoopEvent, ∀ serialize : Response → Bytes, ∃ tr w,
    (loop serialize).Run tr w ∧ tr.map Prod.snd = events.reverse ∧ (∀ x ∈ tr, x.1.TimesOut x.2) ∧
      (w.io 0).closed = true ∧ (w.io 0).recvBuffer = [3, 0, 0] ∧ Loop.Inert serialize tr w := by
  refine ⟨lateHeader, fun serialize => ?_⟩
  obtain ⟨tr, w, h, hevents, htimes, hclosed, hbuffer, hlate⟩ := Loop.exists_run serialize
    (Q := fun tr w => tr.map Prod.snd = lateHeader.reverse ∧ (∀ x ∈ tr, x.1.TimesOut x.2) ∧
      (w.io 0).closed = true ∧ (w.io 0).recvBuffer = [3, 0, 0] ∧ ∀ x ∈ tr, ¬ x.1.Late x.2)
    lateHeader rfl
  exact ⟨tr, w, h, hevents, htimes, hclosed, hbuffer, (inert_iff h).2 hlate⟩

/-- A player logs in, gets the answer and is silent for 16 seconds; the socket has just read another
LoginReq when the idle check closes the session, and then the handler of that read runs. -/
def lateLogin : List LoopEvent :=
  [.accept 0 {}, .deliver 0 [3, 0, 0, 0, -23, 3, 10, 1, 97],
    .readDone 0 [(.login { username := [97] }, {})] {}, .take 0 37, .writeDone 0 {},
    .deliver 0 [3, 0, 0, 0, -23, 3, 10, 1, 98], .close 0 { steady := 16 * 10 ^ 9 },
    .readDone 0 [(.login { username := [98] }, { steady := 16 * 10 ^ 9 })]
      { steady := 16 * 10 ^ 9 }]

/-- The handler logs the closed session in: it is in `ConnectionManager` again and bound to the new
player. -/
theorem late_login_registers : ∃ tr w, (loop Response.serialize).Run tr w ∧
    tr.map Prod.snd = lateLogin.reverse ∧ (∀ x ∈ tr, x.1.TimesOut x.2) ∧
    (w.io 0).dispatched = [(false, ⟨1001, [10, 1, 97]⟩), (true, ⟨1001, [10, 1, 98]⟩)] ∧
    0 ∈ w.server.connectionManager.sessions ∧ ¬ w.server.core.Open 0 ∧
    (w.server.session 0).playerId = 10001 ∧ ¬ Loop.Inert Response.serialize tr w := by
  obtain ⟨tr, w, h, hevents, htimes, hdisp, hconn, hopen, hplayer⟩ :=
    Loop.exists_run Response.serialize
      (Q := fun tr w => tr.map Prod.snd = lateLogin.reverse ∧ (∀ x ∈ tr, x.1.TimesOut x.2) ∧
        (w.io 0).dispatched = [(false, ⟨1001, [10, 1, 97]⟩), (true, ⟨1001, [10, 1, 98]⟩)] ∧
        0 ∈ w.server.connectionManager.sessions ∧ ¬ w.server.core.Open 0 ∧
        (w.server.session 0).playerId = 10001) lateLogin (by decide +kernel)
  exact ⟨tr, w, h, hevents, htimes, hdisp, hconn, hopen, hplayer, fun hinert =>
    hopen (hinert.connected w (List.mem_cons_self ..) 0 hconn)⟩

end GameServer
