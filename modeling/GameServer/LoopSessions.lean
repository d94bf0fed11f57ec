/-
# The sessions of the loop

The input and output of one session was described by itself, with any calls by handlers and
other sessions (`sessionIo`), and as a part of the server, where the handlers are those of the
server and the messages what they send (`loop`).  `Loop.session_run` says that the second is a
case of the first: what a run of the loop does to a session that was accepted is a run of that
session.  So whatever holds of every run of a session holds of every session of the server:
its operations and its queue are in order, and what it dispatched and holds in its buffer is
the splitting of what its socket delivered (`Loop.session_orderly`).
-/

import GameServer.Net.ReceiveLimit
import GameServer.Net.WriteQueue
import GameServer.Sockets

namespace GameServer

open MessageCodec

variable {serialize : Response → Bytes}

namespace Loop

/-- What a session is sent, as calls on it. -/
def callsFor (serialize : Response → Bytes) (sid : SessionId)
    (msgs : List (SessionId × Response)) : List SessionCall :=
  (msgs.filter fun x => sid = x.1).map fun x => .send ⟨x.2.msgId, serialize x.2⟩

theorem sendAll_eq (io : SessionId → SessionIo) (msgs : List (SessionId × Response))
    (sid : SessionId) :
    sendAll serialize io msgs sid = (callsFor serialize sid msgs).foldl SessionIo.call (io sid) := by
  unfold sendAll callsFor
  induction msgs generalizing io with
  | nil => rfl
  | cons x msgs ih =>
    rw [List.foldl_cons, ih]
    by_cases hs : sid = x.1
    · simp only [hs, decide_true, List.filter_cons_of_pos, List.map_cons, List.foldl_cons, if_true]
      rfl
    · simp only [hs, decide_false, Bool.false_eq_true, not_false_eq_true, List.filter_cons_of_neg,
        if_false]

/-- The messages of one read, as the session they arrived on sees them; to the others they are a
number of calls. -/
theorem foldlM_dispatch_io {sid : SessionId} {ms : List Message} {t t' : Turn}
    (h : ms.foldlM (dispatch serialize sid) t = .ok t') :
    (∃ calls, t'.loop.io sid = (t.loop.io sid).dispatchAll calls ms) ∧
      ∀ sid', sid' ≠ sid → ∃ calls : List SessionCall,
        t'.loop.io sid' = calls.foldl SessionIo.call (t.loop.io sid') := by
  induction ms generalizing t with
  | nil =>
    obtain rfl := Except.ok.inj h
    exact ⟨⟨[], rfl⟩, fun _ _ => ⟨[], rfl⟩⟩
  | cons m ms ih =>
    rw [List.foldlM_cons] at h
    cases hm : dispatch serialize sid t m with
    | error u => simp [hm, bind, Except.bind] at h
    | ok t₁ =>
      rw [hm] at h
      obtain ⟨-, -, -, -, hio⟩ := dispatch_ok hm
      obtain ⟨⟨calls, hcalls⟩, hothers⟩ := ih h
      have hfirst : ∀ sid', t₁.loop.io sid' = (callsFor serialize sid'
          (t₁.loop.server.sent.drop t.loop.server.sent.length)).foldl SessionIo.call
          ((t.loop.setIo sid fun s =>
            { s with dispatched := s.dispatched ++ [(s.closed, m)] }).io sid') := fun sid' => by
        rw [hio, sendAll_eq]
      constructor
      · refine ⟨callsFor serialize sid
          (t₁.loop.server.sent.drop t.loop.server.sent.length) :: calls, ?_⟩
        rw [hcalls, hfirst sid]
        simp only [setIo, if_true]
        rfl
      · intro sid' hs
        obtain ⟨calls', hcalls'⟩ := hothers sid' hs
        refine ⟨callsFor serialize sid'
          (t₁.loop.server.sent.drop t.loop.server.sent.length) ++ calls', ?_⟩
        rw [hcalls', hfirst sid', List.foldl_append]
        simp only [setIo, if_neg hs]

theorem close_io {w w' : Loop} {sid : SessionId} {now : Instant} {served : History}
    (h : w.close sid now = some (w', served)) : w'.io = (w.setIo sid SessionIo.close).io := by
  unfold close at h
  obtain ⟨s', -, heq⟩ := Option.map_eq_some_iff.1 h
  obtain ⟨rfl, -⟩ := Prod.mk.inj heq
  rfl

theorem serve_io {w w' : Loop} {e : Event} {served : History}
    (h : w.serve e = some (w', served)) : w'.io = w.io := by
  unfold serve at h
  obtain ⟨s', -, heq⟩ := Option.map_eq_some_iff.1 h
  obtain ⟨rfl, -⟩ := Prod.mk.inj heq
  rfl

/-- What an event of the loop is to one session: its start, calls on it, or an event of its own. -/
inductive Moves (w : Loop) (e : LoopEvent) (sid : SessionId) : SessionIo → Prop
  | start : Moves w e sid ({} : SessionIo).start
  | calls (calls : List SessionCall) : Moves w e sid (calls.foldl SessionIo.call (w.io sid))
  | event {ioe : IoEvent} (hen : (w.io sid).Enabled ioe)
      (htake : ∀ n, ioe = .take n → e = .take sid n) : Moves w e sid ((w.io sid).step ioe)

/-- The sessions that an event is not about stay as they are. -/
theorem Moves.of_eq {w : Loop} {e : LoopEvent} {sid : SessionId} {s : SessionIo}
    (h : s = w.io sid) : Moves w e sid s := h ▸ .calls []

theorem Moves.of_event {w w' : Loop} {e : LoopEvent} {sid sid' : SessionId} {ioe : IoEvent}
    (hen : (w.io sid).Enabled ioe) (htake : ∀ n, ioe = .take n → e = .take sid n)
    (hself : w'.io sid = (w.io sid).step ioe) (hothers : sid' ≠ sid → w'.io sid' = w.io sid') :
    Moves w e sid' (w'.io sid') := by
  by_cases hs : sid' = sid
  · subst hs
    rw [hself]
    exact .event hen htake
  · exact .of_eq (hothers hs)

theorem Moves.of_close {w₀ w w' : Loop} {e : LoopEvent} {sid : SessionId} {now : Instant}
    {served : History} {ioe : IoEvent} (h : w₀.close sid now = some (w', served))
    (hen : (w.io sid).Enabled ioe) (htake : ∀ n, ioe ≠ .take n)
    (hself : (w.io sid).step ioe = (w₀.io sid).close)
    (hothers : ∀ sid', sid' ≠ sid → w₀.io sid' = w.io sid') (sid' : SessionId) :
    Moves w e sid' (w'.io sid') := by
  have hio := close_io h
  refine .of_event hen (fun n he => absurd he (htake n)) ?_ fun hs => ?_
  · rw [hio, hself]
    simp only [setIo, if_true]
  · rw [hio, ← hothers sid' hs]
    simp only [setIo, if_neg hs]

/-- The handler of a read that delivered a chunk. -/
theorem Moves.of_read {w w₁ : Loop} {sid : SessionId} {contents : List (Request × Instant)}
    {now : Instant} {chunk : Bytes} {reads : List (Option Bytes)} {served : History}
    (hreads : (w.io sid).reads = some chunk :: reads) (hen : ∀ calls, (w.io sid).Enabled (.readDone calls))
    (hfold : (codec.drain ((w.io sid).recvBuffer ++ chunk)).1.foldlM (dispatch serialize sid)
      { loop := (w.setIo sid fun s => { s with reads := reads }).setIo sid fun s => { s with
          recvBuffer := (w.io sid).recvBuffer ++ chunk
          received := s.received ++ chunk }
        contents := contents } = .ok ⟨w₁, [], served⟩) (sid' : SessionId) :
    Moves w (.readDone sid contents now) sid'
      ((w₁.setIo sid (rearm (codec.drain ((w.io sid).recvBuffer ++ chunk)).2)).io sid') := by
  obtain ⟨⟨calls, hcalls⟩, hcalled⟩ := foldlM_dispatch_io hfold
  by_cases hs : sid' = sid
  · subst hs
    refine .of_event (hen calls) (fun _ he => IoEvent.noConfusion he) ?_ fun hs => absurd rfl hs
    simp only [setIo, if_true] at hcalls
    simp only [SessionIo.step, hreads, SessionIo.handleRead, SessionIo.parse_eq, setIo, if_true,
      rearm, hcalls]
  · obtain ⟨calls', hcalls'⟩ := hcalled sid' hs
    simp only [setIo, if_neg hs] at hcalls' ⊢
    rw [hcalls']
    exact .calls calls'

/-- **What an event does to a session.** -/
theorem moves_of_step {w w' : Loop} {e : LoopEvent} (h : (loop serialize).step w e w')
    (sid : SessionId) : Moves w e sid (w'.io sid) := by
  obtain ⟨served', h, -⟩ := h
  have hreadable : ∀ {sid' read reads}, (w.io sid').reads = read :: reads →
      ∀ calls, (w.io sid').Enabled (.readDone calls) := fun hreads calls => by
    show (w.io _).reads ≠ []
    rw [hreads]
    exact List.cons_ne_nil _ _
  have hwritable : ∀ {sid' x writes}, (w.io sid').writes = x :: writes →
      (w.io sid').Enabled .writeDone := fun hwrites => by
    show (w.io _).writes ≠ []
    rw [hwrites]
    exact List.cons_ne_nil _ _
  cases stepped_of_step h with
  | @accept sid' _ _ _ hserve =>
    by_cases hs : sid = sid'
    · simp only [setIo, if_pos hs]
      exact .start
    · refine .of_eq ?_
      simp only [setIo, if_neg hs, serve_io hserve]
  | deliver hen =>
    refine .of_event hen (fun _ he => IoEvent.noConfusion he) ?_ fun hs => ?_
    · simp only [setIo, if_true]
    · simp only [setIo, if_neg hs]
  | take hen =>
    refine .of_event hen (fun _ he => IoEvent.take.inj he ▸ rfl) ?_ fun hs => ?_
    · simp only [setIo, if_true]
    · simp only [setIo, if_neg hs]
  | readFailed hreads hclose =>
    refine .of_close hclose (hreadable hreads []) (fun n he => IoEvent.noConfusion he) ?_
      (fun sid hs => ?_) sid
    · simp only [SessionIo.step, hreads, setIo, if_true]
      rfl
    · simp only [setIo, if_neg hs]
  | read hreads hfold => exact .of_read hreads (hreadable hreads) hfold sid
  | writeFailed hwrites hclose =>
    refine .of_close hclose (hwritable hwrites) (fun n he => IoEvent.noConfusion he) ?_
      (fun sid hs => ?_) sid
    · simp only [SessionIo.step, hwrites, setIo, if_true]
      rfl
    · simp only [setIo, if_neg hs]
  | written hwrites =>
    refine .of_event (hwritable hwrites) (fun _ he => IoEvent.noConfusion he) ?_ fun hs => ?_
    · simp only [SessionIo.step, hwrites, setIo, if_true]
    · simp only [setIo, if_neg hs]
  | @close sid' _ _ _ hclose =>
    have hio := close_io hclose
    by_cases hs : sid = sid'
    · subst hs
      have hcall : w'.io sid = [SessionCall.close].foldl SessionIo.call (w.io sid) := by
        rw [hio]
        simp only [setIo, if_true]
        rfl
      rw [hcall]
      exact .calls _
    · refine .of_eq ?_
      rw [hio]
      simp only [setIo, if_neg hs]
  | release hserve | sweep hserve => exact .of_eq (by rw [serve_io hserve])

/-- What an event of the loop does to a session is what the session's own events do. -/
theorem Moves.run {w : Loop} {e : LoopEvent} {sid : SessionId} {s : SessionIo}
    (hm : Moves w e sid s) {tr : List (SessionIo × IoEvent)} (h : sessionIo.Run tr (w.io sid)) :
    ∃ tr', sessionIo.Run tr' s := by
  cases hm with
  | start => exact ⟨[], .nil⟩
  | calls calls =>
    generalize w.io sid = s at h
    induction calls generalizing tr s with
    | nil => exact ⟨tr, h⟩
    | cons c calls ih =>
      have hstep : sessionIo.step s (.call c) (s.call c) := ⟨trivial, rfl⟩
      exact ih _ (h.cons hstep)
  | event hen => exact ⟨_, h.cons ⟨hen, rfl⟩⟩

theorem io_of_accept {w w' : Loop} {sid : SessionId} {now : Instant}
    (h : (loop serialize).step w (.accept sid now) w') : w'.io sid = sessionIo.init := by
  obtain ⟨served, h, -⟩ := h
  cases stepped_of_step h with
  | accept =>
    simp only [setIo, if_true]
    rfl

/-- **The sessions of a run of the loop are runs of a session**, from their accept on. -/
theorem session_run {tr : List (Loop × LoopEvent)} {w : Loop} (h : (loop serialize).Run tr w)
    {sid : SessionId} (hsid : ∃ x ∈ tr, ∃ now, x.2 = .accept sid now) :
    ∃ tr', sessionIo.Run tr' (w.io sid) := by
  induction h with
  | nil =>
    obtain ⟨x, hx, -⟩ := hsid
    exact absurd hx List.not_mem_nil
  | @cons tr w w' e hrun hs ih =>
    obtain ⟨x, hx, now, he⟩ := hsid
    rcases List.mem_cons.1 hx with rfl | hx
    · obtain rfl := he
      rw [io_of_accept hs]
      exact ⟨[], .nil⟩
    · obtain ⟨tr', hrun'⟩ := ih ⟨x, hx, now, he⟩
      exact (moves_of_step hs sid).run hrun'

/-- Every session of the server keeps its queue and its operations in order, and has dispatched the
frames of what its socket delivered. -/
theorem session_orderly {tr : List (Loop × LoopEvent)} {w : Loop} (h : (loop serialize).Run tr w)
    {sid : SessionId} (hsid : ∃ x ∈ tr, ∃ now, x.2 = .accept sid now) :
    (w.io sid).Orderly ∧ codec.drain (w.io sid).received =
      ((w.io sid).dispatched.map Prod.snd, (w.io sid).recvBuffer) := by
  obtain ⟨tr', hrun⟩ := session_run h hsid
  exact ⟨SessionIo.orderly hrun, SessionIo.drain_received hrun⟩

end Loop
end GameServer
