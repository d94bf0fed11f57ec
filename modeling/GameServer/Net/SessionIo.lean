/-
# The input and output of one session

`src/net/Session.cpp` with the socket under it.  `async_read_some` and
`async_write_some` only start an operation; its handler runs later, from the event
loop.  `reads` and `writes` are the operations started whose handlers have not run,
oldest first: a read with the bytes the socket delivered to it, once it has, and a
write with its buffer and the number of bytes the socket took of it, once it has.
An operation the socket has carried out is reported as successful even if the socket
is closed before its handler runs; one it has not is reported as failed, which may
also happen on an open socket.  A read delivers at least one byte and at most the
size of `read_buffer_`; a write takes at least one byte of a buffer that is not
empty.

The events of a session are what the event loop and the services do to it: `send`
and `close` (by a handler of another session, or the idle check), the two things the
socket does, and the two completion handlers.  The handlers of the messages that a
read completes run inside `parse_packet` and may themselves call `send` and `close`
on the session; which calls each makes is part of the event.

Beside the members of `Session` the state keeps what happened: the messages given to
`send`, the buffers given to the socket, the bytes the socket took and delivered,
the messages dispatched, and how often the close callback ran.  Every
operation started and every message dispatched is kept with the value `closed_` had.
-/

import GameServer.Lib.Transition
import GameServer.Net.Receive

namespace GameServer

open MessageCodec

/-- The size of `read_buffer_`. -/
def READ_BUFFER_SIZE : ℕ := 4096

/-- `class Session` with its socket. -/
structure SessionIo where
  recvBuffer : Bytes := []
  writeQueue : List Bytes := []
  closed : Bool := false
  reads : List (Option Bytes) := []
  writes : List (Bytes × Option ℕ) := []
  sent : List Message := []
  readsStarted : List Bool := []
  writesStarted : List (Bool × Bytes) := []
  received : Bytes := []
  wire : Bytes := []
  dispatched : List (Bool × Message) := []
  callbacks : ℕ := 0
  deriving DecidableEq

/-- What a handler may call on the session whose message it handles. -/
inductive SessionCall
  | send (msg : Message)
  | close
  deriving DecidableEq

/-- The events of a session. -/
inductive IoEvent
  | call (c : SessionCall)
  /-- The socket delivers `chunk` to the read that is outstanding. -/
  | deliver (chunk : Bytes)
  /-- The socket takes `n` bytes of the buffer of the write that is outstanding. -/
  | take (n : ℕ)
  /-- The handler of the oldest read runs; `calls` has the calls made by the handlers of
  the messages it dispatches, one list for each message. -/
  | readDone (calls : List (List SessionCall))
  /-- The handler of the oldest write runs. -/
  | writeDone
  deriving DecidableEq

namespace SessionIo

def doRead (s : SessionIo) : SessionIo :=
  { s with reads := s.reads ++ [none], readsStarted := s.readsStarted ++ [s.closed] }

def doWrite (s : SessionIo) : SessionIo :=
  if s.closed then s
  else
    match s.writeQueue with
    | [] => s
    | packet :: _ => { s with
        writes := s.writes ++ [(packet, none)]
        writesStarted := s.writesStarted ++ [(s.closed, packet)] }

def close (s : SessionIo) : SessionIo :=
  if s.closed then s else { s with closed := true, callbacks := s.callbacks + 1 }

def start (s : SessionIo) : SessionIo := s.doRead

def send (s : SessionIo) (msg : Message) : SessionIo :=
  let empty := s.writeQueue.isEmpty
  let s := { s with writeQueue := s.writeQueue ++ [encode msg], sent := s.sent ++ [msg] }
  if empty then s.doWrite else s

def call (s : SessionIo) : SessionCall → SessionIo
  | .send msg => s.send msg
  | .close => s.close

/-- The handlers of one message, which make the first of the lists of calls. -/
def dispatch (w : SessionIo × List (List SessionCall)) (m : Message) :
    SessionIo × List (List SessionCall) :=
  ((w.2.headD []).foldl call { w.1 with dispatched := w.1.dispatched ++ [(w.1.closed, m)] },
    w.2.tail)

/-- The session as the host of its receive path. -/
def host : Host (SessionIo × List (List SessionCall)) Empty where
  dispatch w m := .ok (dispatch w m)
  close w := (w.1.close, w.2)

/-- `parse_packet` on the session's buffer. -/
def parse (s : SessionIo) (calls : List (List SessionCall)) : SessionIo :=
  match parsePacket host (s.recvBuffer.length + 1) (s, calls) s.recvBuffer with
  | some (.ok (w, buffer)) => { w.1 with recvBuffer := buffer }
  | _ => s

/-- The handler of a read: `none` is an error, the end of the stream or the abort of a
read that the socket had not carried out. -/
def handleRead (s : SessionIo) (calls : List (List SessionCall)) : Option Bytes → SessionIo
  | none => s.close
  | some chunk =>
    let s := { s with recvBuffer := s.recvBuffer ++ chunk, received := s.received ++ chunk }
    let s := s.parse calls
    if s.closed then s else s.doRead

/-- The handler of a write. -/
def handleWrite (s : SessionIo) : Option ℕ → SessionIo
  | none => s.close
  | some _ =>
    let s := { s with writeQueue := s.writeQueue.tail }
    if s.writeQueue.isEmpty then s else s.doWrite

/-- The events that can come next.  The socket carries out operations only while it is
open. -/
def Enabled (s : SessionIo) : IoEvent → Prop
  | .call _ => True
  | .deliver chunk => s.reads.head? = some none ∧ s.closed = false ∧ chunk ≠ [] ∧
      chunk.length ≤ READ_BUFFER_SIZE
  | .take n => ∃ packet ∈ s.writes.head?, packet.2 = none ∧ s.closed = false ∧
      n ≤ packet.1.length ∧ (n = 0 → packet.1 = [])
  | .readDone _ => s.reads ≠ []
  | .writeDone => s.writes ≠ []

instance (s : SessionIo) : (e : IoEvent) → Decidable (s.Enabled e)
  | .call _ => inferInstanceAs (Decidable True)
  | .deliver chunk => inferInstanceAs (Decidable (s.reads.head? = some none ∧ s.closed = false ∧
      chunk ≠ [] ∧ chunk.length ≤ READ_BUFFER_SIZE))
  | .take n => inferInstanceAs (Decidable (∃ packet ∈ s.writes.head?, packet.2 = none ∧
      s.closed = false ∧ n ≤ packet.1.length ∧ (n = 0 → packet.1 = [])))
  | .readDone _ => inferInstanceAs (Decidable (s.reads ≠ []))
  | .writeDone => inferInstanceAs (Decidable (s.writes ≠ []))

/-- One event, handled to its end. -/
def step (s : SessionIo) : IoEvent → SessionIo
  | .call c => s.call c
  | .deliver chunk => { s with reads := some chunk :: s.reads.tail }
  | .take n =>
    match s.writes with
    | [] => s
    | (packet, _) :: writes => { s with
        writes := (packet, some n) :: writes
        wire := s.wire ++ packet.take n }
  | .readDone calls =>
    match s.reads with
    | [] => s
    | read :: reads => { s with reads := reads }.handleRead calls read
  | .writeDone =>
    match s.writes with
    | [] => s
    | (_, taken) :: writes => { s with writes := writes }.handleWrite taken

end SessionIo

/-- A session as a transition system, from its `start`. -/
def sessionIo : Transition.System SessionIo IoEvent where
  init := ({} : SessionIo).start
  step s e s' := s.Enabled e ∧ s' = s.step e

namespace SessionIo

/-- The events one after the other make a run that ends as `Q` says, if the evaluation says
so. -/
theorem exists_run {Q : List (SessionIo × IoEvent) → SessionIo → Prop}
    [∀ tr s, Decidable (Q tr s)] (es : List IoEvent)
    (h : (Transition.System.replay (fun s e => if Enabled s e then some (step s e) else none) []
      ({} : SessionIo).start es).any (fun x => decide (Q x.1 x.2)) = true) :
    ∃ tr s, sessionIo.Run tr s ∧ Q tr s := by
  refine Transition.System.exists_run_of_replay (M := sessionIo) (fun s e s' hs => ?_) es h
  split_ifs at hs with hen
  exact ⟨hen, (Option.some.inj hs).symm⟩

/-! ### What a call and a dispatch leave alone -/

/-- The two states differ at most in the write side and in `closed_`. -/
structure SameReading (s s' : SessionIo) : Prop where
  recvBuffer : s'.recvBuffer = s.recvBuffer
  reads : s'.reads = s.reads
  readsStarted : s'.readsStarted = s.readsStarted
  received : s'.received = s.received
  wire : s'.wire = s.wire
  dispatched : s'.dispatched = s.dispatched

theorem SameReading.refl (s : SessionIo) : s.SameReading s := ⟨rfl, rfl, rfl, rfl, rfl, rfl⟩

theorem SameReading.trans {s s' s'' : SessionIo} (h : s.SameReading s') (h' : s'.SameReading s'') :
    s.SameReading s'' where
  recvBuffer := h'.recvBuffer.trans h.recvBuffer
  reads := h'.reads.trans h.reads
  readsStarted := h'.readsStarted.trans h.readsStarted
  received := h'.received.trans h.received
  wire := h'.wire.trans h.wire
  dispatched := h'.dispatched.trans h.dispatched

theorem sameReading_doWrite (s : SessionIo) : s.SameReading s.doWrite := by
  unfold doWrite
  split
  · exact .refl s
  · split <;> exact ⟨rfl, rfl, rfl, rfl, rfl, rfl⟩

theorem sameReading_close (s : SessionIo) : s.SameReading s.close := by
  unfold close
  split
  · exact .refl s
  · exact ⟨rfl, rfl, rfl, rfl, rfl, rfl⟩

theorem sameReading_call (s : SessionIo) (c : SessionCall) : s.SameReading (s.call c) := by
  cases c with
  | send msg =>
    simp only [call, send]
    have hpush : s.SameReading
        { s with writeQueue := s.writeQueue ++ [encode msg], sent := s.sent ++ [msg] } :=
      ⟨rfl, rfl, rfl, rfl, rfl, rfl⟩
    split
    · exact hpush.trans (sameReading_doWrite _)
    · exact hpush
  | close => exact sameReading_close s

theorem sameReading_calls (s : SessionIo) (calls : List SessionCall) :
    s.SameReading (calls.foldl call s) := by
  induction calls generalizing s with
  | nil => exact .refl s
  | cons c calls ih => exact (sameReading_call s c).trans (ih _)

/-- The write handler touches the write side only. -/
theorem sameReading_handleWrite (s : SessionIo) (taken : Option ℕ) :
    s.SameReading (s.handleWrite taken) := by
  cases taken with
  | none => exact sameReading_close s
  | some n =>
    have hpop : s.SameReading { s with writeQueue := s.writeQueue.tail } :=
      ⟨rfl, rfl, rfl, rfl, rfl, rfl⟩
    simp only [handleWrite]
    split
    · exact hpop
    · exact hpop.trans (sameReading_doWrite _)

/-! ### What `parse_packet` does -/

/-- The handlers of the messages, one after the other. -/
def dispatchAll (s : SessionIo) (calls : List (List SessionCall)) (ms : List Message) : SessionIo :=
  (ms.foldl dispatch (s, calls)).1

/-- **`parse_packet` dispatches the complete frames of the buffer** and leaves the rest. -/
theorem parse_eq (s : SessionIo) (calls : List (List SessionCall)) :
    s.parse calls = { s.dispatchAll calls (codec.drain s.recvBuffer).1 with
      recvBuffer := (codec.drain s.recvBuffer).2 } := by
  have hlen : HEADER_SIZE * (codec.drain s.recvBuffer).1.length + (codec.drain s.recvBuffer).2.length ≤
      s.recvBuffer.length := codec.length_drain s.recvBuffer
  have hturns : (codec.drain s.recvBuffer).1.length < s.recvBuffer.length + 1 := by
    unfold HEADER_SIZE at hlen
    omega
  have hfold : (codec.drain s.recvBuffer).1.foldlM host.dispatch (s, calls) =
      .ok ((codec.drain s.recvBuffer).1.foldl dispatch (s, calls)) := List.foldlM_pure ..
  rw [parse, parsePacket_eq host (s, calls) hturns, hfold]
  rfl

/-- What every call keeps, and what recording a dispatch keeps, the handlers of a read keep. -/
theorem dispatchAll_induction {P : SessionIo → Prop} (hcall : ∀ {s} c, P s → P (s.call c))
    (hdisp : ∀ {s} m, P s → P { s with dispatched := s.dispatched ++ [(s.closed, m)] })
    {s : SessionIo} (h : P s) (calls : List (List SessionCall)) (ms : List Message) :
    P (s.dispatchAll calls ms) := by
  have hcalls : ∀ (cs : List SessionCall) {s}, P s → P (cs.foldl call s) := by
    intro cs
    induction cs with
    | nil => exact fun h => h
    | cons c cs ih => exact fun h => ih (hcall c h)
  unfold dispatchAll
  induction ms generalizing s calls with
  | nil => exact h
  | cons m ms ih => exact ih (hcalls _ (hdisp m h)) _

/-- The handlers of a read add the messages to those dispatched, and touch nothing else of
the read side. -/
theorem dispatchAll_frame (s : SessionIo) (calls : List (List SessionCall)) (ms : List Message) :
    (s.dispatchAll calls ms).reads = s.reads ∧
      (s.dispatchAll calls ms).readsStarted = s.readsStarted ∧
      (s.dispatchAll calls ms).received = s.received ∧
      (s.dispatchAll calls ms).wire = s.wire ∧
      (s.dispatchAll calls ms).dispatched.map Prod.snd = s.dispatched.map Prod.snd ++ ms := by
  unfold dispatchAll
  induction ms generalizing s calls with
  | nil => exact ⟨rfl, rfl, rfl, rfl, (List.append_nil _).symm⟩
  | cons m ms ih =>
    have hcalls := sameReading_calls { s with dispatched := s.dispatched ++ [(s.closed, m)] }
      (calls.headD [])
    obtain ⟨h₁, h₂, h₃, h₄, h₅⟩ := ih
      ((calls.headD []).foldl call { s with dispatched := s.dispatched ++ [(s.closed, m)] }) calls.tail
    refine ⟨h₁.trans hcalls.reads, h₂.trans hcalls.readsStarted, h₃.trans hcalls.received,
      h₄.trans hcalls.wire, h₅.trans ?_⟩
    rw [hcalls.dispatched]
    simp

end SessionIo
end GameServer
