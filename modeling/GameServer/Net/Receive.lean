/-
# The receive path of a session

`Session::do_read` and `Session::parse_packet` in `src/net/Session.cpp`.  A read
appends what the socket delivered to `recv_buffer_` and runs the `while (true)` of
`parse_packet`: decode, dispatch on `Success`, stop on `NeedMore`, close the
session on `Error`.  What a dispatch does is left to a `Host`, so that the same
loop serves one session alone and a session of the whole server; a handler that
throws ends the loop with its fault.

The loop has no bound in the source.  `parsePacket h n` runs at most `n` turns of
it and is `none` while it would still be looping; `parsePacket_eq` says that one
turn more than there are complete frames in the buffer is enough, and that the
loop then has dispatched the messages of these frames in order.  `receive_eq`
carries this over to any number of reads, which are the `feed` of the frames, so that
however the stream was cut, the session dispatches the messages of the stream.

Two statements about streams follow.  `receive_encode` is the round trip: packets
that `encode` wrote arrive as the messages they were written for.
`receive_exact` is about arbitrary bytes: the frames of the dispatched messages and
the bytes left over are the stream, and no other splitting of it is possible.
-/

import GameServer.Net.MessageCodec

namespace GameServer

open MessageCodec

variable {σ ε : Type*}

/-- What a session's receive path acts on: the effect of dispatching one message,
which may throw, and of closing the session. -/
structure Host (σ ε : Type*) where
  dispatch : σ → Message → Except ε σ
  close : σ → σ

/-- `Session::parse_packet`, for at most `n` turns of its loop. -/
def parsePacket (h : Host σ ε) : ℕ → σ → Bytes → Option (Except ε (σ × Bytes))
  | 0, _, _ => none
  | n + 1, w, recvBuffer =>
    let d := tryDecode recvBuffer {} []
    match d.status with
    | .success =>
      match h.dispatch w d.outMessage with
      | .ok w' => parsePacket h n w' d.buffer
      | .error f => some (.error f)
    | .needMore => some (.ok (w, d.buffer))
    | .error => some (.ok (h.close w, d.buffer))

/-- The reads of a session, each appending one chunk to `recv_buffer_` and parsing
it. -/
def receive (h : Host σ ε) (n : ℕ) (w : σ) (recvBuffer : Bytes) :
    List Bytes → Option (Except ε (σ × Bytes))
  | [] => some (.ok (w, recvBuffer))
  | chunk :: chunks =>
    match parsePacket h n w (recvBuffer ++ chunk) with
    | some (.ok (w', b)) => receive h n w' b chunks
    | r => r

/-- The host that also keeps the list of the messages dispatched. -/
def Host.logged (h : Host σ ε) : Host (σ × List Message) ε where
  dispatch w m := (h.dispatch w.1 m).map fun w' => (w', w.2 ++ [m])
  close w := (h.close w.1, w.2)

/-- Every handler returns normally. -/
def Host.Returns (h : Host σ ε) : Prop := ∀ w m, ∃ w', h.dispatch w m = .ok w'

/-- **The loop dispatches the complete frames of its buffer.**  It ends within
one turn more than there are frames, after dispatching their messages in order,
with the rest in the buffer, or with the fault of the first handler that threw. -/
theorem parsePacket_eq (h : Host σ ε) {n : ℕ} {b : Bytes} (w : σ)
    (hn : (codec.drain b).1.length < n) :
    parsePacket h n w b =
      some (((codec.drain b).1.foldlM h.dispatch w).map fun w' => (w', (codec.drain b).2)) := by
  induction b using codec.drain_induction generalizing n w with
  | hnone b hb =>
    have hinc : Incomplete b := decode_eq_none_iff.1 hb
    obtain ⟨n, rfl⟩ := Nat.exists_eq_succ_of_ne_zero (by omega : n ≠ 0)
    rw [codec.drain_of_none hb]
    simp only [parsePacket, tryDecode_needMore hinc]
    rfl
  | hsome b m r hb ih =>
    obtain ⟨rfl, hm⟩ := decode_eq_some_iff.1 hb
    rw [codec.drain_of_some hb] at hn ⊢
    obtain ⟨n, rfl⟩ := Nat.exists_eq_succ_of_ne_zero (by omega : n ≠ 0)
    simp only [List.length_cons, Nat.succ_eq_add_one, Nat.add_lt_add_iff_right] at hn
    simp only [parsePacket, tryDecode_rawFrame hm, List.foldlM_cons]
    cases hd : h.dispatch w m with
    | error f => rfl
    | ok w' => exact ih w' hn

/-- **The reads are a receiver of frames**: they dispatch the messages that one appending
each chunk to what it had left would cut off. -/
theorem receive_eq (h : Host σ ε) {n : ℕ} {b : Bytes} (w : σ) (chunks : List Bytes)
    (hn : (b ++ chunks.flatten).length < HEADER_SIZE * n) :
    receive h n w b chunks = some (((codec.feed b chunks).1.foldlM h.dispatch w).map fun w' =>
      (w', (codec.feed b chunks).2)) := by
  induction chunks generalizing b w with
  | nil => rfl
  | cons c chunks ih =>
    have hlen : HEADER_SIZE * (codec.drain (b ++ c)).1.length + (codec.drain (b ++ c)).2.length ≤
        (b ++ c).length := codec.length_drain (b ++ c)
    simp only [List.flatten_cons, List.length_append] at hn hlen
    have hturns : (codec.drain (b ++ c)).1.length < n :=
      lt_of_mul_lt_mul_left (a := HEADER_SIZE) (by omega) (Nat.zero_le _)
    rw [receive, parsePacket_eq h w hturns, Framing.feed, List.foldlM_append]
    cases hd : (codec.drain (b ++ c)).1.foldlM h.dispatch w with
    | error f => rfl
    | ok w' =>
      refine ih w' ?_
      rw [List.length_append]
      omega

/-- A host whose handlers return normally dispatches every list of messages. -/
theorem Host.Returns.foldlM_logged {h : Host σ ε} (hret : h.Returns) (w : σ)
    (l ms : List Message) : ∃ w', ms.foldlM h.dispatch w = .ok w' ∧
      ms.foldlM h.logged.dispatch (w, l) = .ok (w', l ++ ms) := by
  induction ms generalizing w l with
  | nil => exact ⟨w, rfl, by rw [List.append_nil]; rfl⟩
  | cons m ms ih =>
    obtain ⟨w₁, hw₁⟩ := hret w m
    obtain ⟨w', h₁, h₂⟩ := ih w₁ (l ++ [m])
    have hlog : h.logged.dispatch (w, l) m = .ok (w₁, l ++ [m]) := by
      show (h.dispatch w m).map _ = _
      rw [hw₁]
      rfl
    rw [List.append_assoc, List.singleton_append] at h₂
    refine ⟨w', ?_, ?_⟩
    · rw [List.foldlM_cons, hw₁]
      exact h₁
    · rw [List.foldlM_cons, hlog]
      exact h₂

/-- What a session with well-behaved handlers has dispatched, and holds in its
buffer, after any reads. -/
theorem receive_logged {h : Host σ ε} (hret : h.Returns) (w : σ) (chunks : List Bytes) {n : ℕ}
    (hn : chunks.flatten.length < HEADER_SIZE * n) :
    ∃ w', (codec.feed [] chunks).1.foldlM h.dispatch w = .ok w' ∧
      receive h.logged n (w, []) [] chunks =
        some (.ok ((w', (codec.feed [] chunks).1), (codec.feed [] chunks).2)) := by
  obtain ⟨w', h₁, h₂⟩ := hret.foldlM_logged w [] (codec.feed [] chunks).1
  refine ⟨w', h₁, ?_⟩
  rw [receive_eq h.logged (w, []) chunks (by rwa [List.nil_append]), h₂]
  rfl

/-! ### The round trip -/

/-- The packets of a list of messages are their raw frames. -/
theorem drain_encode {ms : List Message} (hms : ∀ m ∈ ms, m.body.length ≤ MAX_BODY_SIZE) :
    codec.drain (ms.map encode).flatten = (ms, []) := by
  have hraw : ms.map encode = ms.map codec.raw := List.map_congr_left fun m hm => encode_eq (hms m hm)
  have h := codec.drain_unique (fun m hm => codec_framed (hms m hm)) codec.decode_nil
  rwa [List.append_nil, ← hraw] at h

/-- **Framing round trip.**  Packets written by `encode` for bodies within the
limit, cut into chunks in any way, are dispatched as exactly the messages they
were written for, in order, and the buffer ends empty; after some of the chunks the
messages dispatched are the first ones.  The handlers return normally, and the
bound on the loop is any number above a sixth of the stream. -/
theorem receive_encode {h : Host σ ε} (hret : h.Returns) (w : σ) (ms : List Message)
    (hms : ∀ m ∈ ms, m.body.length ≤ MAX_BODY_SIZE) (chunks : List Bytes)
    (hcut : chunks.flatten = (ms.map encode).flatten) {n : ℕ}
    (hn : chunks.flatten.length < HEADER_SIZE * n) :
    (∃ w', ms.foldlM h.dispatch w = .ok w' ∧
      receive h.logged n (w, []) [] chunks = some (.ok ((w', ms), []))) ∧
    ∀ k, ∃ w' l b, receive h.logged n (w, []) [] (chunks.take k) = some (.ok ((w', l), b)) ∧
      l <+: ms := by
  have hfeed : codec.feed [] chunks = (ms, []) := by rw [codec.feed_nil, hcut, drain_encode hms]
  constructor
  · obtain ⟨w', h₁, h₂⟩ := receive_logged hret w chunks hn
    rw [hfeed] at h₁ h₂
    exact ⟨w', h₁, h₂⟩
  · intro k
    have hlen : (chunks.take k).flatten.length ≤ chunks.flatten.length :=
      (List.take_sublist k chunks).flatten.length_le
    obtain ⟨w', -, h₂⟩ := receive_logged hret w (chunks.take k) (lt_of_le_of_lt hlen hn)
    refine ⟨w', _, _, h₂, ?_⟩
    have hpre := codec.feed_take_prefix [] chunks k
    rw [hfeed] at hpre
    exact hpre

/-- A login packet of three body bytes, arriving in two pieces. -/
theorem receive_encode_login :
    ∃ w', [(⟨1001, [10, 1, 97]⟩ : Message)].foldlM
        (⟨fun w _ => .ok (w + 1), id⟩ : Host ℕ Unit).dispatch 0 = .ok w' ∧
      receive (⟨fun w _ => .ok (w + 1), id⟩ : Host ℕ Unit).logged 2 (0, []) []
        [[3, 0, 0], [], [0, -23, 3, 10, 1, 97]] = some (.ok ((w', [⟨1001, [10, 1, 97]⟩]), [])) :=
  (receive_encode (h := ⟨fun w _ => .ok (w + 1), id⟩) (fun w _ => ⟨w + 1, rfl⟩) 0
    [⟨1001, [10, 1, 97]⟩] (by decide) [[3, 0, 0], [], [0, -23, 3, 10, 1, 97]] (by decide)
    (by decide)).1

/-! ### Arbitrary streams -/

/-- **Parsing is exact and independent of the segmentation.**  For any bytes in
any chunks, the loop ends on every chunk; the raw frames of the dispatched messages
and the bytes left in the buffer are the stream; what is left is too short for a
header or for the body its header declares; and any other chunks of the same stream
lead to the same messages and the same rest.  `NeedMore` leaves buffer and output
message alone, and a message with a body within the limit re-encodes to the bytes
that were consumed for it. -/
theorem receive_exact {h : Host σ ε} (hret : h.Returns) (w : σ) (chunks : List Bytes) {n : ℕ}
    (hn : chunks.flatten.length < HEADER_SIZE * n) :
    (∃ w' ms b, receive h.logged n (w, []) [] chunks = some (.ok ((w', ms), b)) ∧
      chunks.flatten = (ms.map rawFrame).flatten ++ b ∧
      (b.length < HEADER_SIZE ∨ b.length < HEADER_SIZE + declaredLength b) ∧
      ∀ chunks' : List Bytes, chunks'.flatten = chunks.flatten →
        receive h.logged n (w, []) [] chunks' = some (.ok ((w', ms), b))) ∧
    (∀ b out err, (tryDecode b out err).status = .needMore →
      (tryDecode b out err).buffer = b ∧ (tryDecode b out err).outMessage = out) ∧
    ∀ b out err, (tryDecode b out err).status = .success →
      b = rawFrame (tryDecode b out err).outMessage ++ (tryDecode b out err).buffer ∧
      ((tryDecode b out err).outMessage.body.length ≤ MAX_BODY_SIZE →
        b = encode (tryDecode b out err).outMessage ++ (tryDecode b out err).buffer) := by
  refine ⟨?_, fun b out err hs => ?_, fun b out err hs => ?_⟩
  · obtain ⟨w', h₁, h₂⟩ := receive_logged hret w chunks hn
    rw [codec.feed_nil] at h₁ h₂
    refine ⟨w', _, _, h₂, (codec.drain_sound _).symm,
      decode_eq_none_iff.1 (codec.drain_stuck _), fun chunks' heq => ?_⟩
    obtain ⟨w'', h₁', h₂'⟩ := receive_logged hret w chunks' (heq ▸ hn)
    rw [codec.feed_nil, heq] at h₁' h₂'
    rw [h₂', Except.ok.inj (h₁'.symm.trans h₁)]
  · by_cases hinc : Incomplete b
    · rw [tryDecode_needMore hinc]
      exact ⟨rfl, rfl⟩
    · obtain ⟨m, r, hd, -⟩ := tryDecode_success hinc out err
      rw [hd] at hs
      cases hs
  · by_cases hinc : Incomplete b
    · rw [tryDecode_needMore hinc] at hs
      cases hs
    · obtain ⟨m, r, hd, hb, -⟩ := tryDecode_success hinc out err
      rw [hd]
      exact ⟨hb, fun hm => by rw [encode_eq hm]; exact hb⟩

/-- Two pieces of a stream that holds one empty message and the start of another. -/
theorem receive_exact_partial :
    ∃ w' ms b, receive (⟨fun w _ => .ok (w + 1), id⟩ : Host ℕ Unit).logged 2 (0, []) []
        [[0, 0, 0], [0, 5, 0, 9]] = some (.ok ((w', ms), b)) ∧
      [[0, 0, 0], [0, 5, 0, 9]].flatten = (ms.map rawFrame).flatten ++ b :=
  let ⟨w', ms, b, h₁, h₂, _⟩ := (receive_exact (h := (⟨fun w _ => .ok (w + 1), id⟩ : Host ℕ Unit))
    (fun w _ => ⟨w + 1, rfl⟩) 0 [[0, 0, 0], [0, 5, 0, 9]] (n := 2) (by decide)).1
  ⟨w', ms, b, h₁, h₂⟩

end GameServer
