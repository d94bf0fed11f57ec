/-
# The limit on a received body

`docs/protocol.md` has a packet whose header declares a body of more than
`MAX_BODY_SIZE` bytes be rejected and its connection closed, and `DecodeStatus` has a
value for it.  `encode` observes the limit; `try_decode` does not look at it, and never
returns `Error`.  So whether a session keeps to the limit is up to the peer:
`limited_iff` says that it does in every state of a run exactly when no frame of the
stream that was delivered declares more.

What a session has dispatched and what it holds in `recv_buffer_` are the splitting of
the delivered bytes (`drain_received`), which is all the proof needs of the I/O.
-/

import GameServer.Net.SessionIo

namespace GameServer

open MessageCodec Transition.System

/-- What the protocol asks of a session between two handlers: an open session holds
less than the largest packet, the messages dispatched have bodies within the limit, and an
oversized header at the front of the buffer is an error that has closed the session. -/
structure SessionIo.Limited (s : SessionIo) : Prop where
  bounded : s.closed = true ∨ s.recvBuffer.length < HEADER_SIZE + MAX_BODY_SIZE
  bodies : ∀ x ∈ s.dispatched, x.2.body.length ≤ MAX_BODY_SIZE
  rejected : HEADER_SIZE ≤ s.recvBuffer.length → MAX_BODY_SIZE < declaredLength s.recvBuffer →
    s.closed = true ∧ ∀ out err, (tryDecode s.recvBuffer out err).status = .error

/-- The frames of a stream, and the header of the one it ends in, declare bodies within the
limit: after any number of frames there is no header that declares more. -/
def WithinLimit (stream : Bytes) : Prop :=
  ∀ (ms : List Message) (r : Bytes), stream = (ms.map rawFrame).flatten ++ r →
    (∀ m ∈ ms, m.body.length < 2 ^ 32) → HEADER_SIZE ≤ r.length → declaredLength r ≤ MAX_BODY_SIZE

/-- **`try_decode` never reports an error.** -/
theorem tryDecode_ne_error (b : Bytes) (out : Message) (err : Bytes) :
    (tryDecode b out err).status ≠ .error := by
  by_cases hinc : Incomplete b
  · rw [tryDecode_needMore hinc]
    exact fun h => by cases h
  · obtain ⟨m, r, hd, -⟩ := tryDecode_success hinc out err
    rw [hd]
    exact fun h => by cases h

namespace SessionIo

/-- What the read handler does to the read side: it appends the chunk and cuts. -/
theorem handleRead_some (s : SessionIo) (calls : List (List SessionCall)) (chunk : Bytes) :
    (s.handleRead calls (some chunk)).received = s.received ++ chunk ∧
      (s.handleRead calls (some chunk)).recvBuffer = (codec.drain (s.recvBuffer ++ chunk)).2 ∧
      (s.handleRead calls (some chunk)).dispatched.map Prod.snd =
        s.dispatched.map Prod.snd ++ (codec.drain (s.recvBuffer ++ chunk)).1 := by
  simp only [handleRead, parse_eq]
  obtain ⟨-, -, hrecv, -, hdisp⟩ := dispatchAll_frame
    { s with recvBuffer := s.recvBuffer ++ chunk, received := s.received ++ chunk } calls
    (codec.drain (s.recvBuffer ++ chunk)).1
  split
  · exact ⟨hrecv, rfl, hdisp⟩
  · exact ⟨hrecv, rfl, hdisp⟩

/-- A step delivers a chunk to the handler or leaves the read side as it is. -/
theorem step_reading (s : SessionIo) (e : IoEvent) :
    (∃ chunk, (s.step e).received = s.received ++ chunk ∧
      (s.step e).recvBuffer = (codec.drain (s.recvBuffer ++ chunk)).2 ∧
      (s.step e).dispatched.map Prod.snd =
        s.dispatched.map Prod.snd ++ (codec.drain (s.recvBuffer ++ chunk)).1) ∨
    (s.step e).received = s.received ∧ (s.step e).recvBuffer = s.recvBuffer ∧
      (s.step e).dispatched = s.dispatched := by
  have hsame : ∀ {s' : SessionIo}, s.SameReading s' → s'.received = s.received ∧
      s'.recvBuffer = s.recvBuffer ∧ s'.dispatched = s.dispatched :=
    fun h => ⟨h.received, h.recvBuffer, h.dispatched⟩
  cases e with
  | call c => exact .inr (hsame (sameReading_call s c))
  | deliver chunk => exact .inr ⟨rfl, rfl, rfl⟩
  | take n =>
    right
    unfold step
    dsimp only
    split <;> exact ⟨rfl, rfl, rfl⟩
  | readDone calls =>
    unfold step
    dsimp only
    split
    · exact .inr ⟨rfl, rfl, rfl⟩
    · rename_i read reads hreads
      cases read with
      | none =>
        right
        have hclose := sameReading_close { s with reads := reads }
        exact ⟨hclose.received, hclose.recvBuffer, hclose.dispatched⟩
      | some chunk => exact .inl ⟨chunk, handleRead_some { s with reads := reads } calls chunk⟩
  | writeDone =>
    right
    unfold step
    dsimp only
    split
    · exact ⟨rfl, rfl, rfl⟩
    · rename_i writes _
      have hwrite := sameReading_handleWrite { s with writes := writes } ‹_›
      exact ⟨hwrite.received, hwrite.recvBuffer, hwrite.dispatched⟩

/-- **The delivered stream is split into what was dispatched and what the buffer holds.** -/
theorem drain_received {tr : List (SessionIo × IoEvent)} {s : SessionIo}
    (h : sessionIo.Run tr s) : codec.drain s.received = (s.dispatched.map Prod.snd, s.recvBuffer) := by
  induction h with
  | nil => exact codec.drain_of_none codec.decode_nil
  | @cons tr s s' e hrun hs ih =>
    rw [hs.2]
    rcases s.step_reading e with ⟨chunk, h₁, h₂, h₃⟩ | ⟨h₁, h₂, h₃⟩
    · rw [h₁, h₂, h₃, codec.drain_append, ih]
    · rw [h₁, h₂, h₃, ih]

/-- What was delivered by then is the beginning of what is delivered in the end. -/
theorem received_prefix {tr : List (SessionIo × IoEvent)} {s : SessionIo}
    (h : sessionIo.Run tr s) : ∀ t ∈ visited tr s, t.received <+: s.received := by
  induction h with
  | nil =>
    intro t ht
    rw [visited, List.map_nil, List.mem_singleton] at ht
    rw [ht]
  | @cons tr s s' e hrun hs ih =>
    have hgrow : s.received <+: s'.received := by
      rw [hs.2]
      rcases s.step_reading e with ⟨chunk, h₁, -⟩ | ⟨h₁, -⟩
      · rw [h₁]
        exact List.prefix_append ..
      · rw [h₁]
    intro t ht
    rw [visited, List.map_cons, List.mem_cons] at ht
    rcases ht with rfl | ht
    · exact List.prefix_rfl
    · exact (ih t ht).trans hgrow

end SessionIo

/-- The frames the loop cuts off a stream within the limit have bodies within the limit. -/
theorem WithinLimit.bodies {stream : Bytes} (h : WithinLimit stream) :
    ∀ m ∈ (codec.drain stream).1, m.body.length ≤ MAX_BODY_SIZE := by
  intro m hm
  obtain ⟨before, after, hms⟩ := List.append_of_mem hm
  have hlt : ∀ m ∈ (codec.drain stream).1, m.body.length < 2 ^ 32 :=
    fun m hm => codec_framed_iff.1 (codec.drain_framed stream m hm)
  have hsplit : stream = (before.map rawFrame).flatten ++
      (rawFrame m ++ ((after.map rawFrame).flatten ++ (codec.drain stream).2)) := by
    have hsound : (((codec.drain stream).1.map rawFrame).flatten ++ (codec.drain stream).2) =
        stream := codec.drain_sound stream
    rw [hms, List.map_append, List.map_cons, List.flatten_append, List.flatten_cons] at hsound
    simpa only [List.append_assoc] using hsound.symm
  have hlen : HEADER_SIZE ≤
      (rawFrame m ++ ((after.map rawFrame).flatten ++ (codec.drain stream).2)).length := by
    rw [List.length_append, length_rawFrame]
    omega
  have hdecl := h before _ hsplit
    (fun m' hm' => hlt m' (hms ▸ List.mem_append_left _ hm')) hlen
  rwa [declaredLength_rawFrame (hlt m hm)] at hdecl

/-- The beginning of a stream within the limit is within the limit. -/
theorem WithinLimit.of_prefix {stream stream' : Bytes} (h : WithinLimit stream)
    (hpre : stream' <+: stream) : WithinLimit stream' := by
  intro ms r hsplit hms hlen
  obtain ⟨rest, rfl⟩ := hpre
  rw [← declaredLength_append hlen rest]
  refine h ms (r ++ rest) ?_ hms ?_
  · rw [hsplit, List.append_assoc]
  · rw [List.length_append]
    omega

/-- A session keeps to the limit as long as the stream does. -/
theorem SessionIo.limited_of_within {s : SessionIo}
    (hdrain : codec.drain s.received = (s.dispatched.map Prod.snd, s.recvBuffer))
    (h : WithinLimit s.received) : s.Limited := by
  have hstuck : Incomplete s.recvBuffer := by
    have hnone := codec.drain_stuck s.received
    rw [hdrain] at hnone
    exact decode_eq_none_iff.1 hnone
  have hfront : HEADER_SIZE ≤ s.recvBuffer.length → declaredLength s.recvBuffer ≤ MAX_BODY_SIZE := by
    have hsound := codec.drain_sound s.received
    rw [hdrain] at hsound
    refine h _ _ hsound.symm fun m hm => codec_framed_iff.1 (codec.drain_framed s.received m ?_)
    rw [hdrain]
    exact hm
  have hbodies := h.bodies
  rw [hdrain] at hbodies
  constructor
  case bounded =>
    right
    rcases hstuck with hshort | hshort
    · omega
    · by_cases hlen : HEADER_SIZE ≤ s.recvBuffer.length
      · have := hfront hlen
        omega
      · omega
  case bodies => exact fun x hx => hbodies x.2 (List.mem_map_of_mem hx)
  case rejected => exact fun hlen hover => absurd (hfront hlen) (not_le.2 hover)

/-- A stream that declares more than the limit breaks it: the frame is dispatched, or its
header stays at the front of the buffer. -/
theorem SessionIo.within_of_limited {s : SessionIo}
    (hdrain : codec.drain s.received = (s.dispatched.map Prod.snd, s.recvBuffer))
    (h : s.Limited) : WithinLimit s.received := by
  intro ms r hsplit hms hlen
  have hframes := codec.drain_frames_append (fun m hm => codec_framed_iff.2 (hms m hm)) r
  rw [show (ms.map codec.raw).flatten ++ r = s.received from hsplit.symm, hdrain] at hframes
  obtain ⟨hdisp, hrest⟩ := Prod.mk.inj hframes
  cases hd : codec.decode r with
  | none =>
    rw [codec.drain_of_none hd] at hrest
    obtain rfl : r = s.recvBuffer := hrest.symm
    by_contra hover
    exact tryDecode_ne_error _ {} [] ((h.rejected hlen (not_le.1 hover)).2 {} [])
  | some p =>
    obtain ⟨hr, hm⟩ := decode_eq_some_iff.1 (show decode r = some (p.1, p.2) from hd)
    rw [codec.drain_of_some (show codec.decode r = some (p.1, p.2) from hd)] at hdisp
    have hmem : p.1 ∈ s.dispatched.map Prod.snd := by
      rw [hdisp]
      exact List.mem_append_right _ (List.mem_cons_self ..)
    obtain ⟨x, hx, hxm⟩ := List.mem_map.1 hmem
    rw [hr, declaredLength_rawFrame hm, ← hxm]
    exact h.bodies x hx

/-- **Oversized frames are not rejected.**  For every run of a session, with any calls by the
handlers and any errors and closes: the session keeps to the limit in every state it
passes through if and only if the bytes the socket delivered contain no header, at the start or
after complete frames, that declares a body of more than `MAX_BODY_SIZE` bytes. -/
theorem limited_iff {tr : List (SessionIo × IoEvent)} {s : SessionIo} (h : sessionIo.Run tr s) :
    (∀ t ∈ visited tr s, t.Limited) ↔ WithinLimit s.received := by
  constructor
  · intro hall
    exact SessionIo.within_of_limited (SessionIo.drain_received h) (hall s (List.mem_cons_self ..))
  · intro hwithin t ht
    obtain ⟨tr', -, hrun, -⟩ := h.forall_visited (P := fun _ _ => True) (fun _ => trivial) t ht
    exact SessionIo.limited_of_within (SessionIo.drain_received hrun)
      (hwithin.of_prefix (SessionIo.received_prefix h t ht))

/-- A header that declares 17 * 65536 bytes. -/
theorem limited_iff_oversized : ∃ tr s, sessionIo.Run tr s ∧ s.received = [0, 0, 17, 0, 0, 0] ∧
    ¬ ∀ t ∈ visited tr s, t.Limited := by
  obtain ⟨tr, s, h, hrecv⟩ := SessionIo.exists_run (Q := fun _ s => s.received = [0, 0, 17, 0, 0, 0])
    [.deliver [0, 0, 17, 0, 0, 0], .readDone []] (by decide +kernel)
  refine ⟨tr, s, h, hrecv, fun hall => ?_⟩
  have hle := (limited_iff h).1 hall [] [0, 0, 17, 0, 0, 0] hrecv (by simp) (by decide)
  exact absurd hle (by decide +kernel)

/-- The session waits for the body: it is open, and the decoder asks for more. -/
theorem oversized_accepted : ∃ tr s, sessionIo.Run tr s ∧ s.closed = false ∧
    HEADER_SIZE ≤ s.recvBuffer.length ∧ MAX_BODY_SIZE < declaredLength s.recvBuffer ∧
    (tryDecode s.recvBuffer {} []).status = .needMore ∧ ¬ s.Limited := by
  obtain ⟨tr, s, h, hclosed, hlen, hover, hmore⟩ := SessionIo.exists_run (Q := fun _ s =>
    s.closed = false ∧ HEADER_SIZE ≤ s.recvBuffer.length ∧
      MAX_BODY_SIZE < declaredLength s.recvBuffer ∧
      (tryDecode s.recvBuffer {} []).status = .needMore)
    [.deliver [0, 0, 17, 0, 0, 0], .readDone []] (by decide +kernel)
  refine ⟨tr, s, h, hclosed, hlen, hover, hmore, fun hlim => ?_⟩
  exact absurd (hlim.rejected hlen hover).1 (by rw [hclosed]; decide)

end GameServer
