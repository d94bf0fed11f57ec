/-
# The write queue and the operations outstanding

`Session` has no flag for a write in progress: `send` starts one when it finds
`write_queue_` empty, and the handler of a write starts the next one when the queue is
not empty after the front was popped.  `Orderly` is the invariant that makes this
work: at most one write is outstanding, its buffer is the front of the queue, and an open
session has one whenever the queue is not empty.  Errors and closes leave the queue as
it is, which is why the invariant says nothing about the queue of a closed session
beyond the write that may still be outstanding.  `orderly` carries it to every state of
every run, and `io_discipline` is what it says of the operations started.

A write may take less than its buffer, and the handler pops the packet all the same.
`outgoing_iff` says what this does to the stream: the bytes on the wire are the
packets in the order they were sent, as long as every write takes its whole buffer, and a
queue that has drained without that has lost bytes.
-/

import GameServer.Net.SessionIo

namespace GameServer

open MessageCodec Transition.System

namespace SessionIo

/-- The operations outstanding, the queue and the packets handed to the socket. -/
structure Orderly (s : SessionIo) : Prop where
  reads_le : s.reads.length ≤ 1
  write_front : s.writes = [] ∨
    ∃ packet rest taken, s.writes = [(packet, taken)] ∧ s.writeQueue = packet :: rest
  busy : s.closed = false → s.writeQueue ≠ [] → s.writes ≠ []
  queued : s.closed = false →
    s.writesStarted.map Prod.snd ++ s.writeQueue.tail = s.sent.map encode
  started_prefix : s.writesStarted.map Prod.snd <+: s.sent.map encode
  writes_open : ∀ x ∈ s.writesStarted, x.1 = false
  reads_open : true ∉ s.readsStarted
  callbacks_eq : s.callbacks = if s.closed then 1 else 0

/-- The same between two writes: none is outstanding, and the packets in the queue are those
not handed over yet. -/
structure Ready (s : SessionIo) : Prop where
  reads_le : s.reads.length ≤ 1
  idle : s.writes = []
  queued : s.closed = false → s.writesStarted.map Prod.snd ++ s.writeQueue = s.sent.map encode
  started_prefix : s.writesStarted.map Prod.snd <+: s.sent.map encode
  writes_open : ∀ x ∈ s.writesStarted, x.1 = false
  reads_open : true ∉ s.readsStarted
  callbacks_eq : s.callbacks = if s.closed then 1 else 0

/-- The handler of a successful write pops the packet and hands over the next one; that it
looks first whether there is one makes no difference. -/
theorem handleWrite_some (s : SessionIo) (n : ℕ) : s.handleWrite (some n) =
    ({ s with writeQueue := s.writeQueue.tail } : SessionIo).doWrite := by
  unfold handleWrite doWrite
  dsimp only
  cases s.writeQueue.tail <;> simp

/-- `do_write` hands over the front of the queue, if the session is open and there is one. -/
theorem Ready.doWrite {s : SessionIo} (h : Ready s) : Orderly s.doWrite := by
  unfold SessionIo.doWrite
  split
  · rename_i hclosed
    exact { h with
      write_front := .inl h.idle
      busy := fun hc => absurd hc (by simp [hclosed])
      queued := fun hc => absurd hc (by simp [hclosed]) }
  · rename_i hopen
    rw [Bool.not_eq_true] at hopen
    have hall := h.queued hopen
    split
    · rename_i hq
      rw [hq] at hall
      exact { h with
        write_front := .inl h.idle
        busy := fun _ hne => absurd hq hne
        queued := fun _ => by rw [hq]; exact hall }
    · rename_i packet rest hq
      rw [hq] at hall
      have hstarted : (s.writesStarted ++ [(s.closed, packet)]).map Prod.snd ++ rest =
          s.sent.map encode := by simp [← hall]
      constructor
      case reads_le => exact h.reads_le
      case write_front => exact .inr ⟨packet, rest, none, by rw [h.idle]; rfl, hq⟩
      case busy => exact fun _ _ => by simp
      case queued =>
        intro _
        rw [hq]
        exact hstarted
      case started_prefix => exact ⟨rest, hstarted⟩
      case writes_open =>
        intro x hx
        rcases List.mem_append.1 hx with hx | hx
        · exact h.writes_open x hx
        · rw [List.mem_singleton.1 hx]
          exact hopen
      case reads_open => exact h.reads_open
      case callbacks_eq => exact h.callbacks_eq

namespace Orderly

variable {s : SessionIo}

theorem init : Orderly ({} : SessionIo).start where
  reads_le := le_rfl
  write_front := .inl rfl
  busy _ h := absurd rfl h
  queued _ := rfl
  started_prefix := List.prefix_rfl
  writes_open _ hx := absurd hx List.not_mem_nil
  reads_open := by decide
  callbacks_eq := rfl

theorem close (h : Orderly s) : Orderly s.close := by
  unfold SessionIo.close
  split
  · exact h
  · rename_i hopen
    exact { h with
      busy := fun hc => absurd hc (by simp)
      queued := fun hc => absurd hc (by simp)
      callbacks_eq := by
        rw [h.callbacks_eq]
        simp [hopen] }

/-- A packet that is queued behind others waits; one that is queued alone is handed over, if
the session is open. -/
theorem send (h : Orderly s) (msg : Message) : Orderly (s.send msg) := by
  have hgrow : s.writesStarted.map Prod.snd <+: (s.sent ++ [msg]).map encode := by
    rw [List.map_append]
    exact h.started_prefix.trans (List.prefix_append ..)
  unfold SessionIo.send
  cases hq : s.writeQueue with
  | nil =>
    have hidle : s.writes = [] := by
      rcases h.write_front with hw | ⟨packet, rest, taken, -, hfront⟩
      · exact hw
      · rw [hq] at hfront
        cases hfront
    refine Ready.doWrite { h with idle := hidle, queued := fun hopen => ?_, started_prefix := hgrow }
    have hall := h.queued hopen
    rw [hq, List.tail_nil, List.append_nil] at hall
    rw [hall, List.map_append]
    rfl
  | cons front rest =>
    simp only [List.isEmpty_cons, Bool.false_eq_true, if_false, List.cons_append]
    refine { h with started_prefix := hgrow, write_front := ?_, busy := ?_, queued := ?_ }
    · rcases h.write_front with hw | ⟨packet, rest', taken, hw, hfront⟩
      · exact .inl hw
      · rw [hq] at hfront
        obtain ⟨rfl, rfl⟩ := List.cons.inj hfront
        exact .inr ⟨front, rest ++ [encode msg], taken, hw, rfl⟩
    · exact fun hopen _ => h.busy hopen (hq ▸ List.cons_ne_nil front rest)
    · intro hopen
      have hall := h.queued hopen
      rw [hq, List.tail_cons] at hall
      rw [List.tail_cons, ← List.append_assoc, hall, List.map_append]
      rfl

theorem call (h : Orderly s) (c : SessionCall) : Orderly (s.call c) := by
  cases c with
  | send msg => exact h.send msg
  | close => exact h.close

/-- The handlers of the messages of a read, and then the next read, if the session is
still open. -/
theorem handleRead (h : Orderly s) (hreads : s.reads = []) (calls : List (List SessionCall))
    (read : Option Bytes) : Orderly (s.handleRead calls read) := by
  cases read with
  | none => exact h.close
  | some chunk =>
    have hchunk : Orderly { s with
        recvBuffer := s.recvBuffer ++ chunk
        received := s.received ++ chunk } := { h with reads_le := h.reads_le }
    have hall := dispatchAll_induction (P := Orderly) (fun c ht => ht.call c)
      (fun m ht => { ht with reads_le := ht.reads_le }) hchunk calls
      (codec.drain (s.recvBuffer ++ chunk)).1
    obtain ⟨hreads', -⟩ := dispatchAll_frame
      { s with recvBuffer := s.recvBuffer ++ chunk, received := s.received ++ chunk } calls
      (codec.drain (s.recvBuffer ++ chunk)).1
    simp only [SessionIo.handleRead, parse_eq]
    split
    · exact { hall with reads_le := hall.reads_le }
    · rename_i hopen
      rw [Bool.not_eq_true] at hopen
      refine { hall with reads_le := ?_, reads_open := ?_ }
      · show List.length (_ ++ [none]) ≤ 1
        rw [hreads', hreads]
        exact le_rfl
      · intro hb
        rcases List.mem_append.1 hb with hb | hb
        · exact hall.reads_open hb
        · rw [← List.mem_singleton.1 hb] at hopen
          cases hopen

/-- The handler of the outstanding write: the packet is popped, and the next one is handed
over. -/
theorem handleWrite (h : Orderly s) {packet : Bytes} {rest : List Bytes} {taken : Option ℕ}
    (hfront : s.writeQueue = packet :: rest) :
    Orderly (({ s with writes := [] } : SessionIo).handleWrite taken) := by
  cases taken with
  | none =>
    unfold SessionIo.handleWrite SessionIo.close
    dsimp only
    split
    · rename_i hclosed
      exact { h with
        write_front := .inl rfl
        busy := fun hc => absurd hc (by simp [hclosed]) }
    · rename_i hopen
      exact { h with
        write_front := .inl rfl
        busy := fun hc => absurd hc (by simp)
        queued := fun hc => absurd hc (by simp)
        callbacks_eq := by
          rw [h.callbacks_eq]
          simp [hopen] }
  | some n =>
    have hready : Ready { s with writes := [], writeQueue := rest } :=
      { h with
        idle := rfl
        queued := fun hopen => by
          have hall := h.queued hopen
          rwa [hfront] at hall }
    rw [handleWrite_some, hfront]
    exact hready.doWrite

/-- **The invariant is kept by every event.** -/
theorem step (h : Orderly s) (e : IoEvent) (hen : s.Enabled e) : Orderly (s.step e) := by
  cases e with
  | call c => exact h.call c
  | deliver chunk =>
    obtain ⟨hread, -⟩ := hen
    refine { h with reads_le := ?_ }
    obtain ⟨rest, hreads⟩ := List.head?_eq_some_iff.1 hread
    have hle := h.reads_le
    show (some chunk :: s.reads.tail).length ≤ 1
    rw [hreads] at hle ⊢
    exact hle
  | take n =>
    obtain ⟨⟨packet, taken⟩, hhead, -⟩ := hen
    rcases h.write_front with hw | ⟨packet', rest, taken', hw, hfront⟩
    · rw [hw] at hhead
      cases hhead
    · unfold SessionIo.step
      dsimp only
      rw [hw]
      exact { h with
        write_front := .inr ⟨packet', rest, some n, rfl, hfront⟩
        busy := fun _ _ => List.cons_ne_nil (packet', some n) [] }
  | readDone calls =>
    unfold SessionIo.step
    dsimp only
    cases hreads : s.reads with
    | nil => exact h
    | cons read reads =>
      have hle := h.reads_le
      rw [hreads, List.length_cons] at hle
      obtain rfl : reads = [] := List.length_eq_zero_iff.1 (by omega)
      have hrest : Orderly { s with reads := [] } := { h with reads_le := Nat.zero_le 1 }
      exact hrest.handleRead rfl calls read
  | writeDone =>
    rcases h.write_front with hw | ⟨packet, rest, taken, hw, hfront⟩
    · exact absurd hw hen
    · unfold SessionIo.step
      dsimp only
      rw [hw]
      exact h.handleWrite hfront

end Orderly
/-- It holds at the end of every run. -/
theorem orderly {tr : List (SessionIo × IoEvent)} {s : SessionIo} (h : sessionIo.Run tr s) :
    s.Orderly := by
  induction h with
  | nil => exact Orderly.init
  | cons _ hs ih =>
    rw [hs.2]
    exact ih.step _ hs.1

end SessionIo

/-- **The I/O state machine of a session.**  After any run from `start`, with any order of
sends, completions and closes: at most one read and at most one write are outstanding; an
open session has a write outstanding exactly when its queue is not empty, and the
buffer of an outstanding write is the front of the queue; the packets handed to the
socket are the first of the packets sent, in order, so that each was handed over at most once
and none was passed over; every read and every write was started while `closed_` was not
set; and the close callback has run once if the session is closed and not at all otherwise. -/
theorem io_discipline {tr : List (SessionIo × IoEvent)} {s : SessionIo} (h : sessionIo.Run tr s) :
    s.reads.length ≤ 1 ∧ s.writes.length ≤ 1 ∧
      (s.closed = false → (s.writes ≠ [] ↔ s.writeQueue ≠ [])) ∧
      (∀ write ∈ s.writes, s.writeQueue.head? = some write.1) ∧
      s.writesStarted.map Prod.snd <+: s.sent.map encode ∧
      (∀ x ∈ s.writesStarted, x.1 = false) ∧ true ∉ s.readsStarted ∧
      s.callbacks = if s.closed then 1 else 0 := by
  have hinv := SessionIo.orderly h
  refine ⟨hinv.reads_le, ?_, fun hopen => ⟨fun hw hq => hw ?_, hinv.busy hopen⟩, ?_,
    hinv.started_prefix, hinv.writes_open, hinv.reads_open, hinv.callbacks_eq⟩
  · rcases hinv.write_front with hw | ⟨packet, rest, taken, hw, -⟩
    · rw [hw]
      exact Nat.zero_le _
    · rw [hw]
      exact le_rfl
  · rcases hinv.write_front with hw | ⟨packet, rest, taken, -, hfront⟩
    · exact hw
    · rw [hq] at hfront
      cases hfront
  · intro write hmem
    rcases hinv.write_front with hw | ⟨packet, rest, taken, hw, hfront⟩
    · rw [hw] at hmem
      cases hmem
    · rw [hw, List.mem_singleton] at hmem
      rw [hmem, hfront]
      rfl

/-- A session that is closed while a write is outstanding, with a packet sent after it. -/
theorem io_discipline_closed : ∃ tr s, sessionIo.Run tr s ∧ s.closed = true ∧
    s.writeQueue ≠ [] ∧ s.writesStarted.map Prod.snd <+: s.sent.map encode ∧ s.callbacks = 1 := by
  obtain ⟨tr, s, h, hclosed, hq⟩ := SessionIo.exists_run
    (Q := fun _ s => s.closed = true ∧ s.writeQueue ≠ [])
    [.call (.send ⟨1002, [1]⟩), .take 7, .call .close, .call (.send ⟨2002, [2]⟩), .writeDone]
    (by decide +kernel)
  obtain ⟨-, -, -, -, hstarted, -, -, hcallbacks⟩ := io_discipline h
  rw [hclosed] at hcallbacks
  exact ⟨tr, s, h, hclosed, hq, hstarted, hcallbacks⟩

/-! ### The outgoing stream -/

/-- A write that the socket carries out takes its whole buffer. -/
def IoEvent.FullWrite (s : SessionIo) : IoEvent → Prop
  | .take n => ∀ write ∈ s.writes.head?, n = write.1.length
  | _ => True

instance (s : SessionIo) : (e : IoEvent) → Decidable (e.FullWrite s)
  | .take n => inferInstanceAs (Decidable (∀ write ∈ s.writes.head?, n = write.1.length))
  | .call _ | .deliver _ | .readDone _ | .writeDone => inferInstanceAs (Decidable True)

namespace SessionIo

/-- The bytes on the wire are the beginning of the packets sent, and all of them when the queue
is empty. -/
structure Outgoing (s : SessionIo) : Prop where
  isPrefix : s.wire <+: (s.sent.map encode).flatten
  drained : s.writeQueue = [] → s.wire = (s.sent.map encode).flatten

/-- The packets in the queue that the socket has not taken anything of. -/
def unwritten (s : SessionIo) : List Bytes :=
  match s.writes with
  | (_, some _) :: _ => s.writeQueue.tail
  | _ => s.writeQueue

/-- The packets that were sent between the two states are the ones that were added to the
unwritten ones, and nothing was written. -/
def Queues (s s' : SessionIo) : Prop :=
  ∃ ms : List Message, s'.sent = s.sent ++ ms ∧ s'.unwritten = s.unwritten ++ ms.map encode ∧
    s'.wire = s.wire

theorem Queues.refl {s s' : SessionIo} (hsent : s'.sent = s.sent)
    (hunwritten : s'.unwritten = s.unwritten) (hwire : s'.wire = s.wire) : s.Queues s' :=
  ⟨[], hsent.trans (List.append_nil _).symm, hunwritten.trans (List.append_nil _).symm, hwire⟩

theorem Queues.trans {s s' s'' : SessionIo} (h : s.Queues s') (h' : s'.Queues s'') :
    s.Queues s'' := by
  obtain ⟨ms, h₁, h₂, h₃⟩ := h
  obtain ⟨ms', h₁', h₂', h₃'⟩ := h'
  refine ⟨ms ++ ms', ?_, ?_, h₃'.trans h₃⟩
  · rw [h₁', h₁, List.append_assoc]
  · rw [h₂', h₂, List.append_assoc, List.map_append]

/-- Starting a write takes nothing off the queue. -/
theorem queues_doWrite {s : SessionIo} (hidle : s.writes = []) : s.Queues s.doWrite := by
  have hun : s.unwritten = s.writeQueue := by rw [unwritten, hidle]
  unfold doWrite
  split
  · exact .refl rfl rfl rfl
  · split
    · exact .refl rfl rfl rfl
    · refine .refl rfl ?_ rfl
      rw [hun, hidle]
      rfl

theorem Orderly.queues_send {s : SessionIo} (h : Orderly s) (msg : Message) :
    s.Queues (s.send msg) := by
  have hpush : s.Queues
      { s with writeQueue := s.writeQueue ++ [encode msg], sent := s.sent ++ [msg] } := by
    refine ⟨[msg], rfl, ?_, rfl⟩
    rcases h.write_front with hw | ⟨packet, rest, taken, hw, hfront⟩
    · simp only [unwritten, hw, List.map_cons, List.map_nil]
    · cases taken <;> simp only [unwritten, hw, hfront, List.tail_cons, List.cons_append,
        List.map_cons, List.map_nil]
  unfold SessionIo.send
  dsimp only
  split
  · rename_i hempty
    refine hpush.trans (queues_doWrite ?_)
    rcases h.write_front with hw | ⟨packet, rest, taken, -, hfront⟩
    · exact hw
    · rw [hfront] at hempty
      cases hempty
  · exact hpush

theorem queues_close (s : SessionIo) : s.Queues s.close := by
  unfold close
  split <;> exact .refl rfl rfl rfl

theorem Orderly.queues_call {s : SessionIo} (h : Orderly s) (c : SessionCall) :
    s.Queues (s.call c) := by
  cases c with
  | send msg => exact h.queues_send msg
  | close => exact queues_close s

theorem Orderly.queues_handleRead {s : SessionIo} (h : Orderly s)
    (calls : List (List SessionCall)) (read : Option Bytes) : s.Queues (s.handleRead calls read) := by
  cases read with
  | none => exact queues_close s
  | some chunk =>
    have hchunk : Orderly { s with
        recvBuffer := s.recvBuffer ++ chunk
        received := s.received ++ chunk } := { h with reads_le := h.reads_le }
    obtain ⟨-, hall⟩ := dispatchAll_induction (P := fun t => Orderly t ∧ s.Queues t)
      (fun c ht => ⟨ht.1.call c, ht.2.trans (ht.1.queues_call c)⟩)
      (fun m ht => ⟨{ ht.1 with reads_le := ht.1.reads_le }, ht.2.trans (.refl rfl rfl rfl)⟩)
      ⟨hchunk, .refl rfl rfl rfl⟩ calls (codec.drain (s.recvBuffer ++ chunk)).1
    simp only [SessionIo.handleRead, parse_eq]
    split <;> exact hall.trans (.refl rfl rfl rfl)

/-- **What a step does to the outgoing stream**: it queues packets, or the socket takes the
beginning of the first unwritten one. -/
theorem Orderly.step_outgoing {s : SessionIo} (h : Orderly s) {e : IoEvent} (hen : s.Enabled e) :
    s.Queues (s.step e) ∧ e.FullWrite s ∨
      ∃ n packet, e = .take n ∧ s.writes.head? = some (packet, none) ∧ n ≤ packet.length ∧
        s.unwritten = packet :: (s.step e).unwritten ∧
        (s.step e).wire = s.wire ++ packet.take n ∧ (s.step e).sent = s.sent := by
  cases e with
  | call c => exact .inl ⟨h.queues_call c, trivial⟩
  | deliver chunk => exact .inl ⟨.refl rfl rfl rfl, trivial⟩
  | take n =>
    obtain ⟨⟨packet, taken⟩, hhead, rfl, -, hn, -⟩ := hen
    rcases h.write_front with hw | ⟨packet', rest, taken', hw, hfront⟩
    · rw [hw] at hhead
      cases hhead
    · rw [hw] at hhead
      obtain ⟨rfl, rfl⟩ := Prod.mk.inj (Option.some.inj hhead)
      have hstep : s.step (.take n) =
          { s with writes := [(packet', some n)], wire := s.wire ++ packet'.take n } := by
        simp only [SessionIo.step, hw]
      refine .inr ⟨n, packet', rfl, by rw [hw]; rfl, hn, ?_, by rw [hstep], by rw [hstep]⟩
      rw [hstep]
      simp only [unwritten, hw, hfront, List.tail_cons]
  | readDone calls =>
    refine .inl ⟨?_, trivial⟩
    unfold SessionIo.step
    dsimp only
    cases hreads : s.reads with
    | nil => exact .refl rfl rfl rfl
    | cons read reads =>
      have hle := h.reads_le
      rw [hreads, List.length_cons] at hle
      have hrest : Orderly { s with reads := reads } := { h with reads_le := show reads.length ≤ 1 by omega }
      exact (Queues.refl rfl rfl rfl).trans (hrest.queues_handleRead calls read)
  | writeDone =>
    refine .inl ⟨?_, trivial⟩
    rcases h.write_front with hw | ⟨packet, rest, taken, hw, hfront⟩
    · exact absurd hw hen
    · unfold SessionIo.step
      dsimp only
      rw [hw]
      cases taken with
      | none =>
        have hun : s.Queues { s with writes := [] } := by
          refine .refl rfl ?_ rfl
          simp only [unwritten, hw]
        exact hun.trans (queues_close _)
      | some n =>
        have hpop : s.Queues { s with writes := [], writeQueue := rest } := by
          refine .refl rfl ?_ rfl
          simp only [unwritten, hw, hfront, List.tail_cons]
        show s.Queues (({ s with writes := [] } : SessionIo).handleWrite (some n))
        rw [handleWrite_some, hfront]
        exact hpop.trans (queues_doWrite rfl)

/-- With every write taking its whole buffer, the wire and the unwritten packets are the
packets sent. -/
theorem wire_append_unwritten {tr : List (SessionIo × IoEvent)} {s : SessionIo}
    (h : sessionIo.Run tr s) (hfull : ∀ x ∈ tr, x.2.FullWrite x.1) :
    s.wire ++ s.unwritten.flatten = (s.sent.map encode).flatten := by
  induction h with
  | nil => rfl
  | @cons tr s s' e hrun hs ih =>
    rw [List.forall_mem_cons] at hfull
    have hprev := ih hfull.2
    rw [hs.2]
    rcases (orderly hrun).step_outgoing hs.1 with ⟨⟨ms, h₁, h₂, h₃⟩, -⟩ |
      ⟨n, packet, rfl, hhead, -, h₁, h₂, h₃⟩
    · rw [h₁, h₂, h₃, List.flatten_append, ← List.append_assoc, hprev, List.map_append,
        List.flatten_append]
    · have hn : n = packet.length := hfull.1 _ hhead
      rw [h₁, List.flatten_cons] at hprev
      rw [h₂, h₃, List.take_of_length_le hn.ge, List.append_assoc, hprev]

/-- What a short write leaves out is never made up for: with it, the wire and the unwritten
packets are shorter than the packets sent. -/
theorem length_wire_unwritten {tr : List (SessionIo × IoEvent)} {s : SessionIo}
    (h : sessionIo.Run tr s) :
    s.wire.length + s.unwritten.flatten.length ≤ (s.sent.map encode).flatten.length ∧
      (s.wire.length + s.unwritten.flatten.length = (s.sent.map encode).flatten.length →
        ∀ x ∈ tr, x.2.FullWrite x.1) := by
  induction h with
  | nil => exact ⟨le_rfl, fun _ x hx => absurd hx List.not_mem_nil⟩
  | @cons tr s s' e hrun hs ih =>
    obtain ⟨hle, hfull⟩ := ih
    rw [hs.2]
    rcases (orderly hrun).step_outgoing hs.1 with ⟨⟨ms, h₁, h₂, h₃⟩, hstep⟩ |
      ⟨n, packet, rfl, hhead, hn, h₁, h₂, h₃⟩
    · rw [h₁, h₂, h₃, List.flatten_append, List.map_append, List.flatten_append,
        List.length_append, List.length_append]
      refine ⟨by omega, fun heq => List.forall_mem_cons.2 ⟨hstep, hfull (by omega)⟩⟩
    · rw [h₁, List.flatten_cons, List.length_append] at hle hfull
      rw [h₂, h₃, List.length_append, List.length_take, min_eq_left hn]
      refine ⟨by omega, fun heq => List.forall_mem_cons.2 ⟨?_, hfull (by omega)⟩⟩
      intro write hwrite
      rw [hhead] at hwrite
      rw [← Option.some.inj hwrite]
      show n = packet.length
      omega

/-- The packets not written are in the queue. -/
theorem unwritten_eq_nil {s : SessionIo} (hq : s.writeQueue = []) : s.unwritten = [] := by
  unfold unwritten
  split
  · rw [hq, List.tail_nil]
  · exact hq

end SessionIo

/-- **The outgoing stream.**  In a run in which every write that the socket carries out
takes its whole buffer, the bytes on the wire are, in every state, the beginning of the
packets sent, in order, and all of them when the queue is empty.  Conversely, a run that ends
with an empty queue and had the property throughout had no other writes. -/
theorem outgoing_iff {tr : List (SessionIo × IoEvent)} {s : SessionIo} (h : sessionIo.Run tr s) :
    ((∀ x ∈ tr, x.2.FullWrite x.1) → ∀ t ∈ visited tr s, t.Outgoing) ∧
      (s.writeQueue = [] → (∀ t ∈ visited tr s, t.Outgoing) → ∀ x ∈ tr, x.2.FullWrite x.1) := by
  constructor
  · intro hfull t ht
    obtain ⟨tr', hsuf, hrun, -⟩ := h.forall_visited (P := fun _ _ => True) (fun _ => trivial) t ht
    have hwire := SessionIo.wire_append_unwritten hrun fun x hx => hfull x (hsuf.subset hx)
    refine ⟨⟨_, hwire⟩, fun hq => ?_⟩
    rwa [SessionIo.unwritten_eq_nil hq, List.flatten_nil, List.append_nil] at hwire
  · intro hq hall
    have hend := (hall s (List.mem_cons_self ..)).drained hq
    refine (SessionIo.length_wire_unwritten h).2 ?_
    rw [SessionIo.unwritten_eq_nil hq, hend]
    rfl

/-- Two packets, both written whole. -/
theorem outgoing_iff_two : ∃ tr s, sessionIo.Run tr s ∧ s.sent.length = 2 ∧ s.Outgoing := by
  obtain ⟨tr, s, h, hsent, hfull⟩ := SessionIo.exists_run
    (Q := fun tr s => s.sent.length = 2 ∧ ∀ x ∈ tr, x.2.FullWrite x.1)
    [.call (.send ⟨1002, [1]⟩), .call (.send ⟨2002, [2]⟩), .take 7, .writeDone, .take 7]
    (by decide +kernel)
  exact ⟨tr, s, h, hsent, (outgoing_iff h).1 hfull s (List.mem_cons_self ..)⟩

/-- The socket takes one byte of seven, and the rest of the packet is never written. -/
theorem short_write_loses_bytes : ∃ tr s, sessionIo.Run tr s ∧ s.writeQueue = [] ∧
    s.closed = false ∧ ¬ s.wire <+: (s.sent.map encode).flatten ∧ ¬ s.Outgoing := by
  obtain ⟨tr, s, h, hq, hopen, hwire⟩ := SessionIo.exists_run
    (Q := fun _ s => s.writeQueue = [] ∧ s.closed = false ∧
      ¬ s.wire <+: (s.sent.map encode).flatten)
    [.call (.send ⟨1002, [1]⟩), .call (.send ⟨2002, [2]⟩), .take 1, .writeDone, .take 7, .writeDone]
    (by decide +kernel)
  exact ⟨tr, s, h, hq, hopen, hwire, fun hout => hwire hout.isPrefix⟩

end GameServer
