/-
# From one end to the other

What a client writes is handled by the server, and what the server sends is read by the client,
across the serialisation, the framing, the sockets and the dispatcher.  The loop is that of
`Sockets.lean`, whose handlers now read their requests from the bytes (`wireLoop`): each is the
handler that `start` registers for the id, on the body that was framed (`dispatch_readRequest`).

The two directions meet in `conversation`: a client that takes the next reply it reads
for the answer to the next request it wrote is right, for as long as the socket takes whole
buffers.  That is the condition of `FullWrites`; `Session::do_write` does not ensure it.  The
requests handled are the ones written, in order (`requests_delivered`), and the messages read are
the ones sent, in order, but for those too long for a packet (`responses_received`).
-/

import GameServer.ReplySizes
import GameServer.Streams

namespace GameServer

open MessageCodec Wire

/-! ### What the handlers read -/

/-- What the handler of a message works on: what it reads from the body, and the clock. -/
def Reads (R : Runtime) (m : Message) (c : Request × Instant) : Prop :=
  (∃ players, c.1 = readRequest R players m) ∧ IsInt64 c.2.steady

/-- The players that a ranking is made from. -/
def Request.players : Request → List PlayerState
  | .ranking _ players => players
  | _ => []

theorem readRequest_players (R : Runtime) (players : List PlayerState) (m : Message) :
    readRequest R (readRequest R players m).players m = readRequest R players m := by
  unfold readRequest
  split_ifs <;> rfl

instance (R : Runtime) (m : Message) (c : Request × Instant) : Decidable (Reads R m c) :=
  decidable_of_iff (c.1 = readRequest R c.1.players m ∧ IsInt64 c.2.steady)
    ⟨fun h => ⟨⟨_, h.1⟩, h.2⟩, fun ⟨⟨players, h⟩, hnow⟩ =>
      ⟨by rw [h, readRequest_players], hnow⟩⟩

/-- The handlers of the messages of a read work on what they read from the messages. -/
def Loop.ReadsContents (R : Runtime) (w : Loop) : LoopEvent → Prop
  | .readDone sid contents now =>
    List.Forall₂ (Reads R) (w.completes sid (.readDone sid contents now)) contents
  | _ => True

instance (R : Runtime) (w : Loop) : (e : LoopEvent) → Decidable (w.ReadsContents R e)
  | .readDone sid contents now => inferInstanceAs (Decidable (List.Forall₂ (Reads R)
      (w.completes sid (.readDone sid contents now)) contents))
  | .accept .. | .deliver .. | .take .. | .writeDone .. | .close .. | .release .. | .sweep .. =>
    inferInstanceAs (Decidable True)

/-- The loop with the dispatcher of `start`. -/
def wireLoop (R : Runtime) : Transition.System Loop LoopEvent where
  init := {}
  step w e w' := (loop Response.serialize).step w e w' ∧ w.ReadsContents R e

variable {R : Runtime}

/-- The request that is read is one for the id of the message. -/
theorem fits_readRequest (R : Runtime) (players : List PlayerState) (m : Message) :
    (readRequest R players m).fits m.msgId = true := by
  by_cases h₁ : m.msgId = MessageId.LoginReq
  · rw [readRequest, h₁]
    rfl
  by_cases h₂ : m.msgId = MessageId.MatchReq
  · rw [readRequest, h₂]
    rfl
  by_cases h₃ : m.msgId = MessageId.ChatReq
  · rw [readRequest, h₃]
    rfl
  by_cases h₄ : m.msgId = MessageId.HeartbeatReq
  · rw [readRequest, h₄]
    rfl
  by_cases h₅ : m.msgId = MessageId.ReconnectReq
  · rw [readRequest, h₅]
    rfl
  by_cases h₆ : m.msgId = MessageId.RankingReq
  · rw [readRequest, h₆]
    rfl
  · simp [readRequest, Request.fits, registeredIds, h₁, h₂, h₃, h₄, h₅, h₆]

/-- **A message is handed to the dispatcher of `start`.** -/
theorem Loop.dispatch_readRequest (serialize : Response → Bytes) {sid : SessionId} {t : Turn}
    {m : Message} {players : List PlayerState} {now : Instant}
    {contents : List (Request × Instant)}
    (h : t.contents = (readRequest R players m, now) :: contents) :
    dispatch serialize sid t m =
      let w := t.loop.setIo sid fun s => { s with dispatched := s.dispatched ++ [(s.closed, m)] }
      match (MessageDispatcher.start R).dispatch (w.server.received sid now) sid m now players with
      | .ok server => .ok
        { loop := w.deliver serialize server
          contents := contents
          served := (w.server, .request sid (readRequest R players m) now) :: t.served }
      | .error _ => .error () := by
  dsimp only
  rw [MessageDispatcher.dispatch_start]
  unfold dispatch
  rw [h]
  exact if_pos (fits_readRequest R players m)

theorem isInt64_toInt64 (x : ℤ) : IsInt64 (toInt64 x) :=
  ⟨Int.le_bmod (m := 2 ^ 64) (by norm_num), Int.bmod_lt (m := 2 ^ 64) (by norm_num)⟩

/-- A heartbeat has an `int64`, whatever its bytes are. -/
theorem isInt64_clientTimeMs (R : Runtime) (body : Bytes) :
    IsInt64 (HeartbeatReq.descriptor.parseFromString R body).1.clientTimeMs := by
  refine HeartbeatReq.descriptor.parse_induction R (P := fun m => IsInt64 m.clientTimeMs)
    (fun f hf turns m tag ptr m' ptr' hm h => ?_) (by decide : IsInt64 0) body
  simp only [HeartbeatReq.descriptor, List.mem_cons, List.not_mem_nil, or_false] at hf
  rcases hf with rfl | rfl
  · simp only [Field.case] at h
    split_ifs at h
    obtain ⟨rfl, -⟩ := Case.parsed.inj h
    dsimp only
    exact isInt64_toInt64 _
  · simp only [Field.case] at h
    split_ifs at h
    obtain ⟨rfl, -⟩ := Case.parsed.inj h
    exact hm

theorem Reads.inRange {m : Message} {req : Request} {now : Instant} (h : Reads R m (req, now))
    (sid : SessionId) : (Event.request sid req now).InRange := by
  obtain ⟨⟨players, hreq⟩, hnow⟩ := h
  obtain rfl : req = readRequest R players m := hreq
  unfold readRequest
  split_ifs <;> first | exact trivial | exact ⟨isInt64_clientTimeMs R m.body, hnow⟩

namespace wireLoop

variable {tr : List (Loop × LoopEvent)} {w : Loop}

theorem run_loop (h : (wireLoop R).Run tr w) : (loop Response.serialize).Run tr w := by
  induction h with
  | nil => exact .nil
  | cons _ hs ih => exact ih.cons hs.1

theorem of_loop (h : (loop Response.serialize).Run tr w)
    (hreads : ∀ x ∈ tr, x.1.ReadsContents R x.2) : (wireLoop R).Run tr w := by
  induction h with
  | nil => exact .nil
  | cons _ hs ih =>
    rw [List.forall_mem_cons] at hreads
    exact (ih hreads.2).cons ⟨hs, hreads.1⟩

theorem contents (h : (wireLoop R).Run tr w) : Loop.ContentsAre (Reads R) tr := by
  induction h with
  | nil => exact fun x hx => absurd hx List.not_mem_nil
  | @cons tr w w' e _ hs ih =>
    refine List.forall_mem_cons.2 ⟨fun sid contents now he => ?_, ih⟩
    obtain rfl : e = .readDone sid contents now := he
    exact hs.2

/-- The numbers that the handlers are given are values of their types. -/
theorem inRange (h : (wireLoop R).Run tr w) :
    ∀ x ∈ Loop.history Response.serialize tr, x.2.InRange := by
  induction h with
  | nil => exact fun x hx => absurd hx List.not_mem_nil
  | @cons tr w w' e _ hs ih =>
    intro x hx
    rw [Loop.history, List.flatMap_cons, List.mem_append] at hx
    rcases hx with hx | hx
    · obtain ⟨s, ev⟩ := x
      cases ev with
      | request sid req now =>
        obtain ⟨-, hcompletes⟩ := (Loop.stepSpec_served hs.1).1.requests _ hx sid req now rfl
        cases e with
        | readDone sid' contents now' =>
          have hmem := Loop.served_readDone hs.1 hx rfl
          obtain ⟨m, -, hread⟩ := exists_of_mem_right hs.2 _ hmem
          exact hread.inRange sid
        | _ => exact absurd rfl hcompletes
      | _ => trivial
    · exact ih x hx

theorem wellFormed (h : (wireLoop R).Run tr w) : ∀ x ∈ w.server.sent, x.2.WellFormed :=
  Server.wellFormed_of_sent (Loop.history_run (run_loop h)) (inRange h)

end wireLoop

/-! ### From the client to the server -/

/-- The messages found in the beginning of a stream of packets. -/
theorem drain_encode_prefix {ms : List Message} (hms : ∀ m ∈ ms, m.body.length ≤ MAX_BODY_SIZE)
    {stream : Bytes} (h : stream <+: (ms.map encode).flatten) : (codec.drain stream).1 <+: ms := by
  have hprefix := codec.drain_prefix h
  rwa [drain_encode hms] at hprefix

/-- The requests that messages are read as are the ones they were written for. -/
theorem written_of_reads {qs : List ClientRequest} (hfits : ∀ q ∈ qs, q.Fits)
    {requests : List Request} (h : List.Forall₂ (fun m req => ∃ now, Reads R m (req, now))
      (qs.map ClientRequest.message) requests) : requests.map Request.written = qs.map some := by
  induction qs generalizing requests with
  | nil =>
    cases h
    rfl
  | cons q qs ih =>
    rw [List.map_cons] at h
    rw [List.forall_mem_cons] at hfits
    cases h with
    | cons hread hrest =>
      obtain ⟨now, ⟨players, hreq⟩, -⟩ := hread
      have hwritten := readRequest_message R players hfits.1
      rw [← show _ = readRequest R players q.message from hreq] at hwritten
      rw [List.map_cons, List.map_cons, ih hfits.2 hrest, hwritten]

namespace wireLoop

variable {tr : List (Loop × LoopEvent)} {w : Loop}

/-- The first of the requests written are the requests handled, as many of them as have arrived. -/
theorem exists_handled (h : (wireLoop R).Run tr w) {sid : SessionId} {qs : List ClientRequest}
    (hfits : ∀ q ∈ qs, q.Fits)
    (hrecv : (w.io sid).received <+: (qs.map fun q => encode q.message).flatten) :
    ∃ k, (codec.drain (w.io sid).received).1.length = min k qs.length ∧
      (((Loop.history Response.serialize tr).requestsOn sid).map fun x => x.2.written) =
        (qs.take k).map some := by
  have hsize : ∀ m ∈ qs.map ClientRequest.message, m.body.length ≤ MAX_BODY_SIZE := by
    rw [List.forall_mem_map]
    exact fun q hq => (hfits q hq).size
  have hprefix : (codec.drain (w.io sid).received).1 <+: qs.map ClientRequest.message :=
    drain_encode_prefix hsize (by rwa [List.map_map])
  obtain ⟨k, hk⟩ : ∃ k, (codec.drain (w.io sid).received).1 =
      (qs.take k).map ClientRequest.message :=
    ⟨_, by rw [List.map_take]; exact List.prefix_iff_eq_take.1 hprefix⟩
  have hreads := Loop.forall₂_dispatched (run_loop h) (contents h) sid
  rw [← (Prod.mk.inj (Loop.drain_received (run_loop h) sid)).1, hk] at hreads
  have hwritten := written_of_reads (fun q hq => hfits q (List.mem_of_mem_take hq)) hreads
  rw [List.map_map] at hwritten
  refine ⟨k, ?_, hwritten⟩
  rw [hk, List.length_map, List.length_take]

end wireLoop

/-! ### From the server to the client -/

/-- The messages that fit into a packet; the others are sent as nothing. -/
def framed (msgs : List Response) : List Response :=
  msgs.filter fun r => r.serialize.length ≤ MAX_BODY_SIZE

theorem flatten_encode_framed (msgs : List Response) :
    (msgs.map fun r => encode (r.message Response.serialize)).flatten =
      (((framed msgs).map (Response.message Response.serialize)).map encode).flatten := by
  induction msgs with
  | nil => rfl
  | cons r msgs ih =>
    rw [List.map_cons, List.flatten_cons, ih]
    by_cases hr : r.serialize.length ≤ MAX_BODY_SIZE
    · have hframed : framed (r :: msgs) = r :: framed msgs :=
        List.filter_cons_of_pos (decide_eq_true hr)
      rw [hframed]
      rfl
    · have hframed : framed (r :: msgs) = framed msgs :=
        List.filter_cons_of_neg (by rwa [decide_eq_true_iff])
      have hempty : encode (r.message Response.serialize) = [] := if_pos (not_le.1 hr)
      rw [hframed, hempty]
      rfl

/-- **The client reads the messages it was sent**, as many of them as have arrived. -/
theorem ClientConnection.receive_framed (R : Runtime) {msgs : List Response}
    (hmsgs : ∀ r ∈ msgs, r.WellFormed) (c : ClientSimulator) {chunks : List Bytes}
    (hchunks : chunks.flatten <+:
      (msgs.map fun r => encode (r.message Response.serialize)).flatten)
    {n : ℕ} (hn : chunks.flatten.length < HEADER_SIZE * n) :
    ∃ c' b, receive (host R) n { client := c } [] chunks = some (.ok (c', b)) ∧
      c'.read = (framed msgs).take (codec.drain chunks.flatten).1.length := by
  have hsize : ∀ m ∈ (framed msgs).map (Response.message Response.serialize),
      m.body.length ≤ MAX_BODY_SIZE := by
    rw [List.forall_mem_map]
    exact fun r hr => of_decide_eq_true (List.mem_filter.1 hr).2
  rw [flatten_encode_framed] at hchunks
  have hprefix := drain_encode_prefix hsize hchunks
  have hfold : (codec.feed [] chunks).1.foldlM (host R).dispatch { client := c } =
      .ok ((codec.feed [] chunks).1.foldl (handleMessage R) { client := c }) := List.foldlM_pure ..
  rw [receive_eq (host R) _ chunks (by rwa [List.nil_append]), hfold, codec.feed_nil]
  refine ⟨_, _, rfl, ?_⟩
  rw [List.prefix_iff_eq_take, ← List.map_take] at hprefix
  generalize (codec.drain chunks.flatten).1 = found at hprefix
  have hwell : ∀ r ∈ (framed msgs).take found.length, r.WellFormed := fun r hr =>
    hmsgs r (List.mem_of_mem_filter (List.mem_of_mem_take hr))
  have hread := read_foldl R hwell
    (fun r hr => of_decide_eq_true (List.mem_filter.1 (List.mem_of_mem_take hr)).2) { client := c }
  rw [List.nil_append] at hread
  exact (congrArg (fun ms => (ms.foldl (handleMessage R) { client := c }).read) hprefix).trans hread

/-! ### The conversation -/

/-- The ranking that is asked for fits into a packet. -/
def ClientRequest.Modest : ClientRequest → Prop
  | ranking req => 24 * toInt req.topN ≤ MAX_BODY_SIZE
  | _ => True

instance : (q : ClientRequest) → Decidable q.Modest
  | .ranking req => inferInstanceAs (Decidable (24 * toInt req.topN ≤ MAX_BODY_SIZE))
  | .login _ | .match _ | .chat _ | .heartbeat _ | .reconnect _ => inferInstanceAs (Decidable True)

theorem isAnswered_of_written {req : Request} {q : ClientRequest} (h : req.written = some q) :
    req.isAnswered = q.isAnswered := by
  cases req <;> first | cases h; rfl | cases h

/-- The requests that are answered, of those handled and of those written. -/
theorem map_written_filter {handled : List (Server × Request)} {qs : List ClientRequest}
    (h : (handled.map fun x => x.2.written) = qs.map some) :
    ((handled.filter fun x => x.2.isAnswered).map fun x => x.2.written) =
      (qs.filter ClientRequest.isAnswered).map some := by
  induction handled generalizing qs with
  | nil => rw [List.map_eq_nil_iff.1 h.symm]; rfl
  | cons x handled ih =>
    obtain ⟨q, qs, rfl, hq, hqs⟩ := List.map_eq_cons_iff.1 h.symm
    have hsame := isAnswered_of_written hq.symm
    rw [List.filter_cons, List.filter_cons, hsame]
    split_ifs
    · rw [List.map_cons, ih hqs.symm, List.map_cons, hq]
    · exact ih hqs.symm

/-- The answer to a modest request fits into a packet. -/
theorem Server.Answers.length_le {s : Server} {req : Request} {r : Response} {q : ClientRequest}
    (h : s.Answers req r) (hshort : r.Short) (hq : req.written = some q) (hmodest : q.Modest) :
    r.serialize.length ≤ MAX_BODY_SIZE := by
  by_cases hranking : ∃ items, r = .rankingResp items
  · obtain ⟨resp, rfl⟩ := hranking
    cases req with
    | ranking req players =>
      have hitems : resp.items = _ := h
      obtain rfl := Option.some.inj hq
      have hbound : 24 * toInt req.topN ≤ MAX_BODY_SIZE := hmodest
      have hlen := length_serialize_rankingResp resp
      rw [hitems, List.length_map, List.length_take] at hlen
      omega
    | _ => exact h.elim
  · exact hshort.length_le h.isAnswered.2 fun items hr => hranking ⟨items, hr⟩

/-- **The client reads what the loop has sent.** -/
theorem wireLoop.receive_sent {tr : List (Loop × LoopEvent)} {w : Loop} (h : (wireLoop R).Run tr w)
    {sid : SessionId} (hfull : Loop.FullWrites tr sid) {chunks : List Bytes}
    (hwire : chunks.flatten <+: (w.io sid).wire) {n : ℕ}
    (hn : chunks.flatten.length < HEADER_SIZE * n) (c : ClientSimulator) :
    ∃ c' b, receive (ClientConnection.host R) n { client := c } [] chunks = some (.ok (c', b)) ∧
      c'.read = (framed (w.server.sentTo sid)).take (codec.drain chunks.flatten).1.length := by
  have hsent : ∀ r ∈ w.server.sentTo sid, r.WellFormed := fun r hr => by
    obtain ⟨x, hx, rfl⟩ := List.mem_map.1 hr
    exact wellFormed h x (List.mem_of_mem_filter hx)
  exact ClientConnection.receive_framed R hsent c
    (hwire.trans (Loop.wire_prefix (run_loop h) hfull)) hn

/-- The client that has read all the bytes, when nothing is unwritten, has read all the messages. -/
theorem wireLoop.read_all {tr : List (Loop × LoopEvent)} {w : Loop} (h : (wireLoop R).Run tr w)
    {sid : SessionId} (hfull : Loop.FullWrites tr sid) (hnone : (w.io sid).unwritten = []) :
    (framed (w.server.sentTo sid)).take (codec.drain (w.io sid).wire).1.length =
      framed (w.server.sentTo sid) := by
  obtain ⟨-, hpackets⟩ := Loop.wire_append_unwritten (run_loop h) hfull
  rw [hnone, List.flatten_nil, List.append_nil, Loop.sent_eq (run_loop h), List.map_map,
    show encode ∘ Response.message Response.serialize =
      fun r => encode (r.message Response.serialize) from rfl, flatten_encode_framed] at hpackets
  have hsize : ∀ m ∈ (framed (w.server.sentTo sid)).map (Response.message Response.serialize),
      m.body.length ≤ MAX_BODY_SIZE := by
    rw [List.forall_mem_map]
    exact fun r hr => of_decide_eq_true (List.mem_filter.1 hr).2
  rw [hpackets, drain_encode hsize, List.length_map, List.take_length]

/-- The first requests of a client. -/
def ClientRequest.opening : List ClientRequest :=
  [.login { username := ascii "player" }, .match { playerId := 10000 },
    .heartbeat { clientTimeMs := 5 }]

/-- A client that logs in, asks to be matched and sends a heartbeat, and has been sent the three
replies. -/
theorem wireLoop.exists_run : ∃ tr w, (wireLoop Runtime.reference).Run tr w ∧
    Loop.FullWrites tr 1 ∧
    (w.io 1).received = (ClientRequest.opening.map fun q => encode q.message).flatten ∧
    (w.io 1).wire.length = 66 ∧ (w.io 1).unwritten = [] ∧
    (framed (w.server.sentTo 1)).length = 3 ∧
    (framed (w.server.sentTo 1)).filter Response.isReply = framed (w.server.sentTo 1) := by
  obtain ⟨tr, w, h, hreads, hfull, hrest⟩ := Loop.exists_run Response.serialize
    (Q := fun tr w => (∀ x ∈ tr, x.1.ReadsContents Runtime.reference x.2) ∧
      (∀ x ∈ tr, Loop.FullWrite 1 x.1 x.2) ∧
      (w.io 1).received = (ClientRequest.opening.map fun q => encode q.message).flatten ∧
      (w.io 1).wire.length = 66 ∧ (w.io 1).unwritten = [] ∧
      (framed (w.server.sentTo 1)).length = 3 ∧
      (framed (w.server.sentTo 1)).filter Response.isReply = framed (w.server.sentTo 1))
    [.accept 1 {}, .deliver 1 [8, 0, 0, 0, -23], .readDone 1 [] {},
      .deliver 1 [3, 10, 6, 112, 108, 97, 121, 101, 114, 3, 0, 0, 0, -47, 7, 8, -112, 78, 2, 0, 0, 0,
        41, 35, 8, 5],
      .readDone 1 [(.login { username := ascii "player" }, {}), (.match { playerId := 10000 }, {}),
        (.heartbeat { clientTimeMs := 5 }, {})] {},
      .take 1 37, .writeDone 1 {}, .take 1 21, .writeDone 1 {}, .take 1 8, .writeDone 1 {}]
    (by decide +kernel)
  exact ⟨tr, w, of_loop h hreads, hfull, hrest⟩

section

variable {tr : List (Loop × LoopEvent)} {w : Loop} {sid : SessionId} {qs : List ClientRequest}
  {chunks : List Bytes} {n : ℕ}

/-- **The server handles what the client wrote.**  If the bytes delivered to a session are the
beginning of the packets of some requests, the requests handled on it are the first of them, in order
and with their contents; if all the bytes were delivered, they are all of them. -/
theorem requests_delivered (h : (wireLoop R).Run tr w) (hfits : ∀ q ∈ qs, q.Fits)
    (hrecv : (w.io sid).received <+: (qs.map fun q => encode q.message).flatten) :
    (((Loop.history Response.serialize tr).requestsOn sid).map fun x => x.2.written) <+:
        qs.map some ∧
      ((w.io sid).received = (qs.map fun q => encode q.message).flatten →
        (((Loop.history Response.serialize tr).requestsOn sid).map fun x => x.2.written) =
          qs.map some) := by
  obtain ⟨k, hk, hhandled⟩ := wireLoop.exists_handled h hfits hrecv
  rw [hhandled]
  refine ⟨(List.take_prefix k qs).map some, fun hall => ?_⟩
  have hsize : ∀ m ∈ qs.map ClientRequest.message, m.body.length ≤ MAX_BODY_SIZE := by
    rw [List.forall_mem_map]
    exact fun q hq => (hfits q hq).size
  have hdrain := drain_encode hsize
  rw [List.map_map] at hdrain
  rw [hall, show (qs.map fun q => encode q.message) = qs.map (encode ∘ ClientRequest.message) from rfl,
    hdrain, List.length_map] at hk
  rw [List.take_of_length_le (by omega)]

/-- A login, delivered in two pieces, of which the second has the packets of two more requests. -/
theorem requests_delivered_login : ∃ tr w, (wireLoop Runtime.reference).Run tr w ∧
    (((Loop.history Response.serialize tr).requestsOn 1).map fun x => x.2.written) =
      ClientRequest.opening.map some := by
  obtain ⟨tr, w, h, -, hrecv, -⟩ := wireLoop.exists_run
  have hfits : ∀ q ∈ ClientRequest.opening, q.Fits := by decide +kernel
  exact ⟨tr, w, h, (requests_delivered h hfits (by rw [hrecv])).2 hrecv⟩

/-- **The client reads what the server sent.**  If the socket takes the whole buffer of every write, a
client that has read the beginning of the bytes on the wire, in any pieces, has read the first of
the messages that the server sent to the session and that fit into a packet, in order and with
their contents; if it has read all the bytes and nothing is unwritten, it has read all of them. -/
theorem responses_received (h : (wireLoop R).Run tr w) (hfull : Loop.FullWrites tr sid)
    (hwire : chunks.flatten <+: (w.io sid).wire) (hn : chunks.flatten.length < HEADER_SIZE * n)
    (c : ClientSimulator) :
    ∃ c' b, receive (ClientConnection.host R) n { client := c } [] chunks = some (.ok (c', b)) ∧
      c'.read <+: framed (w.server.sentTo sid) ∧
      (chunks.flatten = (w.io sid).wire → (w.io sid).unwritten = [] →
        c'.read = framed (w.server.sentTo sid)) := by
  obtain ⟨c', b, hreceive, hread⟩ := wireLoop.receive_sent h hfull hwire hn c
  refine ⟨c', b, hreceive, hread ▸ List.take_prefix .., fun hall hnone => ?_⟩
  rw [hread, hall, wireLoop.read_all h hfull hnone]

/-- The client that has read the bytes of the three replies has read all that it was sent. -/
theorem responses_received_login : ∃ tr w, (wireLoop Runtime.reference).Run tr w ∧
    (w.io 1).wire.length = 66 ∧ (framed (w.server.sentTo 1)).length = 3 ∧
    ∃ c' b, receive (ClientConnection.host Runtime.reference) 12 { client := {} } [] [(w.io 1).wire] =
      some (.ok (c', b)) ∧ c'.read = framed (w.server.sentTo 1) := by
  obtain ⟨tr, w, h, hfull, -, hlen, hnone, hthree, -⟩ := wireLoop.exists_run
  have hflat : [(w.io 1).wire].flatten = (w.io 1).wire := List.append_nil _
  have hn : [(w.io 1).wire].flatten.length < HEADER_SIZE * 12 := by rw [hflat, hlen]; decide
  obtain ⟨c', b, hreceive, -, hread⟩ := responses_received h hfull (by rw [hflat]) hn {}
  exact ⟨tr, w, h, hlen, hthree, c', b, hreceive, hread hflat hnone⟩

/-- **The next reply is for the next request.**  If the bytes delivered to a session are the beginning
of the packets of some requests, none of them for a ranking that is too long, and the socket takes
the whole buffer of every write, then of the answered requests handled on the session, which are the
first of those written, the first are those that the replies read by the client answer, one by one and
in order, each in the state in which its request was handled. -/
theorem conversation (h : (wireLoop R).Run tr w) (hfits : ∀ q ∈ qs, q.Fits)
    (hmodest : ∀ q ∈ qs, q.Modest)
    (hrecv : (w.io sid).received <+: (qs.map fun q => encode q.message).flatten)
    (hfull : Loop.FullWrites tr sid) (hwire : chunks.flatten <+: (w.io sid).wire)
    (hn : chunks.flatten.length < HEADER_SIZE * n) (c : ClientSimulator) :
    ∃ c' b, receive (ClientConnection.host R) n { client := c } [] chunks = some (.ok (c', b)) ∧
      (((Loop.history Response.serialize tr).answeredOn sid).map fun x => x.2.written) <+:
        (qs.filter ClientRequest.isAnswered).map some ∧
      ∃ answered, answered <+: (Loop.history Response.serialize tr).answeredOn sid ∧
        List.Forall₂ (fun x r => x.1.Answers x.2 r) answered (c'.read.filter Response.isReply) := by
  obtain ⟨c', b, hreceive, hread⟩ := wireLoop.receive_sent h hfull hwire hn c
  obtain ⟨k, -, hhandled⟩ := wireLoop.exists_handled h hfits hrecv
  have hwritten := map_written_filter hhandled
  have hrun := Loop.history_run (wireLoop.run_loop h)
  have hanswers := Server.replies_answer hrun sid
  refine ⟨c', b, hreceive, ?_, forall₂_prefix_right hanswers ?_⟩
  · rw [History.answeredOn, hwritten]
    exact ((List.take_prefix k qs).filter _).map some
  -- The replies all fit, so that the client reads the first of them.
  have hfit : ∀ r ∈ (w.server.sentTo sid).filter Response.isReply,
      r.serialize.length ≤ MAX_BODY_SIZE := fun r hr => by
    obtain ⟨x, hx, hans⟩ := exists_of_mem_right hanswers r hr
    have hmem : x.2.written ∈ ((qs.take k).filter ClientRequest.isAnswered).map some :=
      hwritten ▸ List.mem_map_of_mem hx
    obtain ⟨q, hq, hxq⟩ := List.mem_map.1 hmem
    obtain ⟨y, hy, rfl⟩ := List.mem_map.1 (List.mem_of_mem_filter hr)
    have hshort := Server.short_of_sent hrun y (List.mem_of_mem_filter hy)
    exact hans.length_le hshort hxq.symm (hmodest q (List.mem_of_mem_take (List.mem_of_mem_filter hq)))
  have hframed : (framed (w.server.sentTo sid)).filter Response.isReply =
      (w.server.sentTo sid).filter Response.isReply := by
    rw [framed, List.filter_comm, List.filter_eq_self]
    exact fun r hr => decide_eq_true (hfit r hr)
  rw [← hframed, hread]
  exact (List.take_prefix _ _).filter Response.isReply

/-- The three replies to the three requests. -/
theorem conversation_login : ∃ tr w, (wireLoop Runtime.reference).Run tr w ∧
    ∃ c' b, receive (ClientConnection.host Runtime.reference) 12 { client := {} } [] [(w.io 1).wire] =
        some (.ok (c', b)) ∧
      (c'.read.filter Response.isReply).length = 3 ∧
      (((Loop.history Response.serialize tr).answeredOn 1).map fun x => x.2.written) <+:
        ClientRequest.opening.map some ∧
      ∃ answered, answered <+: (Loop.history Response.serialize tr).answeredOn 1 ∧
        List.Forall₂ (fun x r => x.1.Answers x.2 r) answered (c'.read.filter Response.isReply) := by
  obtain ⟨tr, w, h, hfull, hrecv, hlen, hnone, hthree, hreplies⟩ := wireLoop.exists_run
  have hflat : [(w.io 1).wire].flatten = (w.io 1).wire := List.append_nil _
  have hn : [(w.io 1).wire].flatten.length < HEADER_SIZE * 12 := by rw [hflat, hlen]; decide
  have hfits : ∀ q ∈ ClientRequest.opening, q.Fits := by decide +kernel
  have hmodest : ∀ q ∈ ClientRequest.opening, q.Modest := by decide
  obtain ⟨c', b, hreceive, hwritten, hanswers⟩ :=
    conversation h hfits hmodest (by rw [hrecv]) hfull (by rw [hflat]) hn {}
  obtain ⟨c₁, b₁, hreceive₁, hread⟩ := wireLoop.receive_sent h hfull (by rw [hflat]) hn {}
  obtain ⟨rfl, -⟩ := Prod.mk.inj (Except.ok.inj (Option.some.inj (hreceive.symm.trans hreceive₁)))
  rw [hflat, wireLoop.read_all h hfull hnone] at hread
  refine ⟨tr, w, h, c', b, hreceive, ?_, hwritten, hanswers⟩
  rw [hread, hreplies, hthree]

end
end GameServer
