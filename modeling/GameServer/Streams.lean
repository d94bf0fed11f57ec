/-
# The streams of the loop

What a run of the loop reads from and writes to each session, against what the server handles and
sends.  The messages dispatched on a session are the ones its requests were read from, in order
(`forall₂_dispatched`).  The messages given to `Session::send` are those the server sent to the
session, in order (`sent_eq`), and where every write of the session takes its whole buffer, the
bytes on its wire are the beginning of their packets (`wire_prefix`).

`history` has the events of the server in the order in which a run of the loop handles them.
-/

import GameServer.LoopSessions
import GameServer.Replies

namespace GameServer

open MessageCodec

/-- A response as it is given to `Session::send`. -/
def Response.message (serialize : Response → Bytes) (r : Response) : Message :=
  ⟨r.msgId, serialize r⟩

namespace SessionIo

theorem sent_doWrite (s : SessionIo) : s.doWrite.sent = s.sent := by
  unfold doWrite
  split
  · rfl
  · split <;> rfl

theorem sent_send (s : SessionIo) (msg : Message) : (s.send msg).sent = s.sent ++ [msg] := by
  unfold send
  dsimp only
  split
  · exact sent_doWrite _
  · rfl

theorem sent_close (s : SessionIo) : s.close.sent = s.sent := by
  unfold close
  split <;> rfl

theorem sent_handleWrite (s : SessionIo) (taken : Option ℕ) :
    (s.handleWrite taken).sent = s.sent := by
  cases taken with
  | none => exact sent_close s
  | some n =>
    rw [handleWrite_some]
    exact sent_doWrite _

/-- Calls queue packets and write nothing. -/
theorem Orderly.queues_calls {s : SessionIo} (h : Orderly s) (calls : List SessionCall) :
    (calls.foldl SessionIo.call s).Orderly ∧ s.Queues (calls.foldl SessionIo.call s) := by
  induction calls generalizing s with
  | nil => exact ⟨h, .refl rfl rfl rfl⟩
  | cons c calls ih =>
    obtain ⟨hord, hqueues⟩ := ih (h.call c)
    exact ⟨hord, (h.queues_call c).trans hqueues⟩

end SessionIo

namespace Loop

variable {serialize : Response → Bytes}

/-- The events of the server that a run of the loop consists of, latest first. -/
def history (serialize : Response → Bytes) (tr : List (Loop × LoopEvent)) : History :=
  tr.flatMap fun x => x.1.served serialize x.2

theorem history_run {tr : List (Loop × LoopEvent)} {w : Loop} (h : (loop serialize).Run tr w) :
    GameServer.server.Run (history serialize tr) w.server := by
  induction h with
  | nil => exact .nil
  | cons _ hs ih => exact (stepSpec_served hs).1.run _ ih

/-! ### The messages of one read -/

theorem sent_callsFor (s : SessionIo) (sid : SessionId) (msgs : List (SessionId × Response)) :
    ((callsFor serialize sid msgs).foldl SessionIo.call s).sent =
      s.sent ++ ((msgs.filter fun x => x.1 = sid).map Prod.snd).map (Response.message serialize) := by
  unfold callsFor
  induction msgs generalizing s with
  | nil => exact (List.append_nil _).symm
  | cons x msgs ih =>
    by_cases hs : sid = x.1
    · have hcall : (s.call (.send ⟨x.2.msgId, serialize x.2⟩)).sent =
          s.sent ++ [x.2.message serialize] := SessionIo.sent_send ..
      rw [List.filter_cons_of_pos (by simpa using hs), List.map_cons, List.foldl_cons, ih, hcall,
        List.filter_cons_of_pos (by simpa using hs.symm), List.append_assoc]
      rfl
    · rw [List.filter_cons_of_neg (by simpa using hs), ih,
        List.filter_cons_of_neg (by simpa using Ne.symm hs)]

/-- The contents that the messages of one read are handled with, and what their handlers send. -/
structure Handles (serialize : Response → Bytes) (sid : SessionId) (ms : List Message)
    (t t' : Turn) : Prop where
  contents : ∃ used, t.contents = used ++ t'.contents ∧ used.length = ms.length ∧
    t'.served.map Prod.snd =
      (used.map fun c => Event.request sid c.1 c.2).reverse ++ t.served.map Prod.snd
  sent : ∃ msgs, t'.loop.server.sent = t.loop.server.sent ++ msgs ∧ ∀ sid',
    (t'.loop.io sid').sent = (t.loop.io sid').sent ++
      ((msgs.filter fun x => x.1 = sid').map Prod.snd).map (Response.message serialize)

theorem handles_dispatch {sid : SessionId} {t t' : Turn} {m : Message}
    (h : dispatch serialize sid t m = .ok t') : Handles serialize sid [m] t t' := by
  obtain ⟨req, now, hstep, hserved, hio⟩ := dispatch_ok h
  constructor
  case contents =>
    unfold dispatch at h
    split at h
    · cases h
    · rename_i req' now' contents hcontents
      split_ifs at h
      dsimp only at h
      split at h
      · obtain rfl := Except.ok.inj h
        exact ⟨[(req', now')], hcontents, rfl, rfl⟩
      · cases h
  case sent =>
    obtain ⟨replies, notifications, hsends⟩ := Server.sends_of_step hstep
    refine ⟨replies ++ notifications, hsends.sent_eq, fun sid' => ?_⟩
    rw [hio, sendAll_eq, sent_callsFor, hsends.sent_eq, List.drop_left]
    simp only [setIo]
    split_ifs <;> rfl

theorem handles_foldlM {sid : SessionId} {ms : List Message} {t t' : Turn}
    (h : ms.foldlM (dispatch serialize sid) t = .ok t') : Handles serialize sid ms t t' := by
  induction ms generalizing t with
  | nil =>
    obtain rfl := Except.ok.inj h
    exact ⟨⟨[], rfl, rfl, rfl⟩, [], (List.append_nil _).symm, fun _ => (List.append_nil _).symm⟩
  | cons m ms ih =>
    rw [List.foldlM_cons] at h
    cases hm : dispatch serialize sid t m with
    | error u => simp [hm, bind, Except.bind] at h
    | ok t₁ =>
      rw [hm] at h
      obtain ⟨⟨used, hused, hlen, hserved⟩, msgs, hsent, hio⟩ := handles_dispatch hm
      obtain ⟨⟨used', hused', hlen', hserved'⟩, msgs', hsent', hio'⟩ := ih h
      constructor
      case contents =>
        refine ⟨used ++ used', ?_, ?_, ?_⟩
        · rw [hused, hused', List.append_assoc]
        · rw [List.length_append, hlen, hlen', List.length_singleton, List.length_cons, Nat.add_comm]
        · rw [hserved', hserved, List.map_append, List.reverse_append, List.append_assoc]
      case sent =>
        refine ⟨msgs ++ msgs', ?_, fun sid' => ?_⟩
        · rw [hsent', hsent, List.append_assoc]
        · rw [hio', hio, List.filter_append, List.map_append, List.map_append, List.append_assoc]

/-! ### One event -/

theorem map_snd_requestsOn (tr : History) (sid : SessionId) :
    (tr.requestsOn sid).map Prod.snd = (tr.map Prod.snd).reverse.filterMap (Event.requestOn sid) := by
  rw [History.requestsOn, List.map_filterMap, ← List.map_reverse, List.filterMap_map]
  refine List.filterMap_congr fun x _ => ?_
  cases he : Event.requestOn sid x.2 <;> simp [he]

/-- The requests of one session are on that session. -/
theorem filterMap_requestOn (used : List (Request × Instant)) (sid sid' : SessionId) :
    (used.map fun c => Event.request sid c.1 c.2).filterMap (Event.requestOn sid') =
      if sid = sid' then used.map Prod.fst else [] := by
  induction used with
  | nil => split_ifs <;> rfl
  | cons c used ih =>
    rw [List.map_cons, List.filterMap_cons, ih]
    by_cases hs : sid = sid' <;> simp [Event.requestOn, hs]

/-- What an event adds to the streams of a session: the contents its messages are handled with, and
the messages it is sent. -/
structure Adds (serialize : Response → Bytes) (w : Loop) (e : LoopEvent) (w' : Loop)
    (sid : SessionId) : Prop where
  requests : ∃ contents : List (Request × Instant), contents.length = (w.completes sid e).length ∧
    ((w.served serialize e).requestsOn sid).map Prod.snd = contents.map Prod.fst ∧
    (contents = [] ∨ ∃ now, e = .readDone sid contents now)
  sent : ((∃ now, e = .accept sid now) ∧ (w'.io sid).sent = [] ∧ w'.server.sent = w.server.sent) ∨
    ∃ msgs, w'.server.sent = w.server.sent ++ msgs ∧ (w'.io sid).sent = (w.io sid).sent ++
      ((msgs.filter fun x => x.1 = sid).map Prod.snd).map (Response.message serialize)

/-- An event that handles no message and sends none. -/
theorem Adds.of_idle {w w' : Loop} {e : LoopEvent} {sid : SessionId}
    (hnone : w.completes sid e = []) (hreq : (w.served serialize e).requestsOn sid = [])
    (hserver : w'.server.sent = w.server.sent) (hio : (w'.io sid).sent = (w.io sid).sent) :
    Adds serialize w e w' sid where
  requests := ⟨[], by rw [hnone]; rfl, by rw [hreq]; rfl, .inl rfl⟩
  sent := .inr ⟨[], by rw [hserver, List.append_nil], by rw [hio]; exact (List.append_nil _).symm⟩

/-- A server event that is no request sends nothing. -/
theorem serve_idle {w w' : Loop} {e : Event} {served : History}
    (h : w.serve e = some (w', served)) (he : ∀ sid req now, e ≠ .request sid req now)
    (sid : SessionId) : served.requestsOn sid = [] ∧ w'.server.sent = w.server.sent ∧
      w'.io = w.io := by
  have hio := serve_io h
  unfold serve at h
  obtain ⟨s', hs', heq⟩ := Option.map_eq_some_iff.1 h
  obtain ⟨rfl, rfl⟩ := Prod.mk.inj heq
  refine ⟨?_, Server.sent_of_not_request (eq_ok_of_toOption hs') he, hio⟩
  cases e with
  | request sid' req now => exact absurd rfl (he sid' req now)
  | _ => rfl

theorem close_idle {w w' : Loop} {sid : SessionId} {now : Instant} {served : History}
    (h : w.close sid now = some (w', served)) (sid' : SessionId) :
    served.requestsOn sid' = [] ∧ w'.server.sent = w.server.sent ∧
      (w'.io sid').sent = (w.io sid').sent := by
  have hio := close_io h
  unfold close at h
  obtain ⟨s', hs', heq⟩ := Option.map_eq_some_iff.1 h
  obtain ⟨rfl, rfl⟩ := Prod.mk.inj heq
  refine ⟨rfl, Server.sent_of_not_request (e := .close sid now) (eq_ok_of_toOption hs')
    fun _ _ _ he => Event.noConfusion he, ?_⟩
  rw [hio]
  simp only [setIo]
  split_ifs
  · exact SessionIo.sent_close _
  · rfl

theorem sent_setIo {w : Loop} {sid : SessionId} {f : SessionIo → SessionIo}
    (hf : (f (w.io sid)).sent = (w.io sid).sent) (sid' : SessionId) :
    ((w.setIo sid f).io sid').sent = (w.io sid').sent := by
  simp only [setIo]
  split_ifs with hs
  · rw [hs]
    exact hf
  · rfl

/-- The handler of a read that delivered a chunk. -/
theorem Adds.of_read {w w₁ : Loop} {sid : SessionId} {contents : List (Request × Instant)}
    {now : Instant} {chunk : Bytes} {reads : List (Option Bytes)} {served : History}
    (hreads : (w.io sid).reads = some chunk :: reads)
    (hfold : (codec.drain ((w.io sid).recvBuffer ++ chunk)).1.foldlM (dispatch serialize sid)
      { loop := (w.setIo sid fun s => { s with reads := reads }).setIo sid fun s => { s with
          recvBuffer := (w.io sid).recvBuffer ++ chunk
          received := s.received ++ chunk }
        contents := contents } = .ok ⟨w₁, [], served⟩)
    (hserved : w.served serialize (.readDone sid contents now) = served) (sid' : SessionId) :
    Adds serialize w (.readDone sid contents now)
      (w₁.setIo sid (rearm (codec.drain ((w.io sid).recvBuffer ++ chunk)).2)) sid' := by
  obtain ⟨⟨used, hused, hlen, hevents⟩, msgs, hsent, hio⟩ := handles_foldlM hfold
  rw [List.append_nil] at hused
  obtain rfl : contents = used := hused
  have hevents : served.map Prod.snd =
      (contents.map fun c => Event.request sid c.1 c.2).reverse := by
    rw [hevents]
    exact List.append_nil _
  constructor
  case requests =>
    have hrequests : ((w.served serialize (.readDone sid contents now)).requestsOn sid').map Prod.snd =
        if sid = sid' then contents.map Prod.fst else [] := by
      rw [hserved, map_snd_requestsOn, hevents, List.reverse_reverse, filterMap_requestOn]
    have hcompletes : w.completes sid' (.readDone sid contents now) =
        if sid' = sid then (codec.drain ((w.io sid).recvBuffer ++ chunk)).1 else [] := by
      simp only [completes, hreads, List.head?_cons]
    rw [hrequests, hcompletes]
    by_cases hs : sid = sid'
    · rw [if_pos hs, if_pos hs.symm]
      exact ⟨contents, hlen, rfl, .inr ⟨now, hs ▸ rfl⟩⟩
    · rw [if_neg hs, if_neg (Ne.symm hs)]
      exact ⟨[], rfl, rfl, .inl rfl⟩
  case sent =>
    refine .inr ⟨msgs, hsent, ?_⟩
    have hrearm : ∀ buffer : Bytes, (rearm buffer (w₁.io sid)).sent = (w₁.io sid).sent := by
      intro buffer
      unfold rearm
      split <;> rfl
    rw [sent_setIo (hrearm _) sid', hio]
    simp only [setIo]
    split_ifs <;> rfl

/-- The requests that a read consists of are those its handlers read. -/
theorem served_readDone {w w' : Loop} {sid : SessionId} {contents : List (Request × Instant)}
    {now : Instant} (h : (loop serialize).step w (.readDone sid contents now) w')
    {x : Server × Event} (hx : x ∈ w.served serialize (.readDone sid contents now))
    {sid' : SessionId} {req : Request} {now' : Instant} (hreq : x.2 = .request sid' req now') :
    (req, now') ∈ contents := by
  obtain ⟨served', h, -⟩ := h
  have hserved : w.served serialize (.readDone sid contents now) = served' := by
    rw [served, h]
    rfl
  rw [hserved] at hx
  cases stepped_of_step h with
  | readFailed _ hclose =>
    obtain ⟨s', -, heq⟩ := Option.map_eq_some_iff.1 hclose
    obtain ⟨-, rfl⟩ := Prod.mk.inj heq
    rw [List.mem_singleton.1 hx] at hreq
    cases hreq
  | read _ hfold =>
    obtain ⟨used, hused, -, hevents⟩ := (handles_foldlM hfold).contents
    rw [List.append_nil] at hused
    obtain rfl : contents = used := hused
    have hmem := List.mem_map_of_mem (f := Prod.snd) hx
    rw [hevents, List.map_nil, List.append_nil, List.mem_reverse, List.mem_map, hreq] at hmem
    obtain ⟨c, hc, heq⟩ := hmem
    obtain ⟨-, rfl, rfl⟩ := Event.request.inj heq
    exact hc

/-- **What an event adds to the streams of a session.** -/
theorem adds_of_step {w w' : Loop} {e : LoopEvent} (h : (loop serialize).step w e w')
    (sid : SessionId) : Adds serialize w e w' sid := by
  obtain ⟨served', h, -⟩ := h
  have hserved : w.served serialize e = served' := by rw [served, h]; rfl
  cases stepped_of_step h with
  | @accept sid' now w₁ _ hserve =>
    obtain ⟨hreq, hsent, hio⟩ := serve_idle hserve (fun _ _ _ he => Event.noConfusion he) sid
    by_cases hs : sid = sid'
    · subst hs
      refine ⟨⟨[], rfl, by rw [hserved, hreq]; rfl, .inl rfl⟩, .inl ⟨⟨now, rfl⟩, ?_, hsent⟩⟩
      simp only [setIo, if_true]
      rfl
    · refine .of_idle rfl (by rw [hserved, hreq]) hsent ?_
      simp only [setIo, if_neg hs, hio]
  | deliver => exact .of_idle rfl (by rw [hserved]; rfl) rfl (sent_setIo rfl sid)
  | take =>
    refine .of_idle rfl (by rw [hserved]; rfl) rfl (sent_setIo ?_ sid)
    unfold SessionIo.step
    dsimp only
    split <;> rfl
  | readFailed hreads hclose =>
    obtain ⟨hreq, hsent, hio⟩ := close_idle hclose sid
    refine .of_idle ?_ (by rw [hserved, hreq]) hsent (hio.trans (sent_setIo rfl sid))
    simp only [completes, hreads, List.head?_cons]
  | read hreads hfold => exact .of_read hreads hfold hserved sid
  | writeFailed _ hclose =>
    obtain ⟨hreq, hsent, hio⟩ := close_idle hclose sid
    exact .of_idle rfl (by rw [hserved, hreq]) hsent (hio.trans (sent_setIo rfl sid))
  | written =>
    exact .of_idle rfl (by rw [hserved]; rfl) rfl
      ((sent_setIo (SessionIo.sent_handleWrite ..) sid).trans (sent_setIo rfl sid))
  | close hclose =>
    obtain ⟨hreq, hsent, hio⟩ := close_idle hclose sid
    exact .of_idle rfl (by rw [hserved, hreq]) hsent hio
  | release hserve | sweep hserve =>
    obtain ⟨hreq, hsent, hio⟩ := serve_idle hserve (fun _ _ _ he => Event.noConfusion he) sid
    exact .of_idle rfl (by rw [hserved, hreq]) hsent (by rw [hio])

/-! ### Runs -/

/-- The contents that the handlers read from the messages of a run are as `P` says. -/
def ContentsAre (P : Message → Request × Instant → Prop) (tr : List (Loop × LoopEvent)) : Prop :=
  ∀ x ∈ tr, ∀ sid contents now, x.2 = .readDone sid contents now →
    List.Forall₂ P (x.1.completes sid x.2) contents

/-- A session that is accepted is new. -/
theorem not_known_of_accept {w w' : Loop} {sid : SessionId} {now : Instant}
    (h : (loop serialize).step w (.accept sid now) w') : w.server.core.closedFlag sid = none := by
  obtain ⟨served', h, hen⟩ := h
  cases stepped_of_step h with
  | accept hserve =>
    obtain ⟨s', -, heq⟩ := Option.map_eq_some_iff.1 hserve
    obtain ⟨-, rfl⟩ := Prod.mk.inj heq
    have hnew : sid ∉ w.server.sessions := hen _ (List.mem_singleton_self _)
    rw [Core.closedFlag, show w.server.core.sessions.lookup sid = none from
      (Table.not_mem_iff _ _).1 hnew]
    rfl

/-- **The requests handled on a session are the messages dispatched on it**, as they were read. -/
theorem forall₂_dispatched {P : Message → Request × Instant → Prop}
    {tr : List (Loop × LoopEvent)} {w : Loop} (h : (loop serialize).Run tr w)
    (hP : ContentsAre P tr) (sid : SessionId) :
    List.Forall₂ (fun m req => ∃ now, P m (req, now)) ((w.io sid).dispatched.map Prod.snd)
      (((history serialize tr).requestsOn sid).map Prod.snd) := by
  induction h with
  | nil => exact .nil
  | @cons tr w w' e hrun hs ih =>
    rw [ContentsAre, List.forall_mem_cons] at hP
    have hprev := ih hP.2
    obtain ⟨⟨contents, hlen, hreq, hnow⟩, -⟩ := adds_of_step hs sid
    have hnew : List.Forall₂ (fun m req => ∃ now, P m (req, now)) (w.completes sid e)
        (contents.map Prod.fst) := by
      rcases hnow with rfl | ⟨now, rfl⟩
      · rw [List.length_eq_zero_iff.1 hlen.symm]
        exact .nil
      · rw [List.forall₂_map_right_iff]
        exact (hP.1 sid contents now rfl).imp fun m c hc => ⟨c.2, hc⟩
    have hhistory : ((history serialize ((w, e) :: tr)).requestsOn sid).map Prod.snd =
        ((history serialize tr).requestsOn sid).map Prod.snd ++ contents.map Prod.fst := by
      rw [history, List.flatMap_cons, ← history, requestsOn_append, List.map_append, hreq]
    rw [hhistory]
    rcases (stepSpec_served hs).1.dispatched sid with ⟨⟨now, rfl⟩, hnil⟩ | hdisp
    · -- A new session: nothing was handled on it.
      have hnone : (history serialize tr).requestsOn sid = [] := by
        by_contra hne
        have hknown := Server.known_of_request (history_run hrun) hne
        rw [not_known_of_accept hs] at hknown
        cases hknown
      rw [hnil, hnone]
      exact hnew
    · have hsnd : (w.completes sid e).map (Prod.snd ∘ Prod.mk (w.io sid).closed) =
          w.completes sid e := List.map_id'' (fun _ => rfl) _
      rw [hdisp, List.map_append, List.map_map, hsnd]
      exact List.rel_append hprev hnew

/-- **What a session is given to send is what the server sent to it.** -/
theorem sent_eq {tr : List (Loop × LoopEvent)} {w : Loop} (h : (loop serialize).Run tr w)
    (sid : SessionId) :
    (w.io sid).sent = (w.server.sentTo sid).map (Response.message serialize) := by
  induction h with
  | nil => rfl
  | @cons tr w w' e hrun hs ih =>
    rcases (adds_of_step hs sid).sent with ⟨⟨now, rfl⟩, hnil, hserver⟩ | ⟨msgs, hserver, hio⟩
    · have hnone : w.server.sentTo sid = [] := by
        rw [Server.sentTo, List.map_eq_nil_iff, List.filter_eq_nil_iff]
        intro x hx hsid
        have hknown := Server.known_of_sent (history_run hrun) x hx
        rw [of_decide_eq_true hsid, not_known_of_accept hs] at hknown
        cases hknown
      rw [hnil, Server.sentTo, hserver, ← Server.sentTo, hnone]
      rfl
    · rw [hio, ih, Server.sentTo_append hserver, List.map_append]

/-! ### The outgoing stream -/

/-- The event is not that the socket takes a part of a buffer of the session only. -/
def FullWrite (sid : SessionId) (w : Loop) : LoopEvent → Prop
  | .take sid' n => sid' = sid → (IoEvent.take n).FullWrite (w.io sid)
  | _ => True

instance (sid : SessionId) (w : Loop) : (e : LoopEvent) → Decidable (FullWrite sid w e)
  | .take sid' n => inferInstanceAs (Decidable (sid' = sid → (IoEvent.take n).FullWrite (w.io sid)))
  | .accept .. | .deliver .. | .readDone .. | .writeDone .. | .close .. | .release .. | .sweep .. =>
    inferInstanceAs (Decidable True)

/-- The writes of a session that the socket carries out in a run take their whole buffers. -/
def FullWrites (tr : List (Loop × LoopEvent)) (sid : SessionId) : Prop :=
  ∀ x ∈ tr, FullWrite sid x.1 x.2

/-- **The bytes delivered to a session are split** into the messages dispatched on it and what its
buffer holds. -/
theorem drain_received {tr : List (Loop × LoopEvent)} {w : Loop} (h : (loop serialize).Run tr w)
    (sid : SessionId) : codec.drain (w.io sid).received =
      ((w.io sid).dispatched.map Prod.snd, (w.io sid).recvBuffer) := by
  induction h with
  | nil => exact codec.drain_of_none codec.decode_nil
  | @cons tr w w' e _ hs ih =>
    have hmoves := moves_of_step hs sid
    generalize w'.io sid = s' at hmoves
    cases hmoves with
    | start => exact codec.drain_of_none codec.decode_nil
    | calls calls =>
      have hsame := SessionIo.sameReading_calls (w.io sid) calls
      rw [hsame.received, hsame.dispatched, hsame.recvBuffer, ih]
    | @event ioe hen htake =>
      rcases (w.io sid).step_reading ioe with ⟨chunk, h₁, h₂, h₃⟩ | ⟨h₁, h₂, h₃⟩
      · rw [h₁, h₂, h₃, codec.drain_append, ih]
      · rw [h₁, h₂, h₃, ih]

/-- With full writes, the wire and the unwritten packets are the packets sent. -/
theorem wire_append_unwritten {tr : List (Loop × LoopEvent)} {w : Loop}
    (h : (loop serialize).Run tr w) {sid : SessionId} (hfull : FullWrites tr sid) :
    (w.io sid).Orderly ∧ (w.io sid).wire ++ (w.io sid).unwritten.flatten =
      ((w.io sid).sent.map encode).flatten := by
  induction h with
  | nil =>
    have hinit := SessionIo.Orderly.init
    exact ⟨{ hinit with reads_le := Nat.zero_le 1, reads_open := List.not_mem_nil }, rfl⟩
  | @cons tr w w' e _ hs ih =>
    rw [FullWrites, List.forall_mem_cons] at hfull
    obtain ⟨hord, hwire⟩ := ih hfull.2
    have hqueues : ∀ {s' : SessionIo}, (w.io sid).Queues s' →
        s'.wire ++ s'.unwritten.flatten = (s'.sent.map encode).flatten := by
      rintro s' ⟨ms, hsent, hunwritten, hwire'⟩
      rw [hsent, hunwritten, hwire', List.flatten_append, ← List.append_assoc, hwire, List.map_append,
        List.flatten_append]
    have hmoves := moves_of_step hs sid
    generalize w'.io sid = s' at hmoves
    cases hmoves with
    | start => exact ⟨.init, rfl⟩
    | calls calls =>
      obtain ⟨hord', hq⟩ := hord.queues_calls calls
      exact ⟨hord', hqueues hq⟩
    | @event ioe hen htake =>
      refine ⟨hord.step ioe hen, ?_⟩
      rcases hord.step_outgoing hen with ⟨hq, -⟩ | ⟨n, packet, rfl, hhead, -, h₁, h₂, h₃⟩
      · exact hqueues hq
      · have htaken : FullWrite sid w (.take sid n) := htake n rfl ▸ hfull.1
        have hn : n = packet.length := htaken rfl _ hhead
        rw [h₁, List.flatten_cons] at hwire
        rw [h₂, h₃, List.take_of_length_le hn.ge, List.append_assoc, hwire]

/-- **The bytes on the wire of a session** are the beginning of the packets of what the server sent
to it. -/
theorem wire_prefix {tr : List (Loop × LoopEvent)} {w : Loop} (h : (loop serialize).Run tr w)
    {sid : SessionId} (hfull : FullWrites tr sid) :
    (w.io sid).wire <+:
      ((w.server.sentTo sid).map fun r => encode (r.message serialize)).flatten := by
  obtain ⟨-, hwire⟩ := wire_append_unwritten h hfull
  rw [sent_eq h, List.map_map] at hwire
  exact ⟨_, hwire⟩

end Loop
end GameServer
