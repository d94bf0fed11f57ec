/-
# The server with its sockets

The event loop as it is: the server's state together with the input and output of every
session.  The events are the completions of accepts, reads and writes, the closes of the idle
check, the sweep, what the sockets do in between, and the release of a session object, which an
operation outstanding prevents, since its handler holds the session.

A read that has delivered bytes runs `parse_packet`, whose host is now the whole server: each
complete message is handed to its handler, and what the handlers send goes through
`Session::send` of the sessions it is for.  The contents that a handler reads from a body
and the clock it reads are part of the event, one `Request` and one `Instant` for each message;
`serialize` stands for protobuf's `SerializeAsString`.

`Loop.step` computes the state after an event and the events of the server it consists of, each
with the state it was handled in; `Stepped` lists what that can be.  So a run of the loop is a run
of the server (`Loop.server_run`), in which messages come only from completed reads.
-/

import GameServer.Net.SessionIo
import GameServer.Registration

namespace GameServer

open MessageCodec

/-- The server and the sockets of its sessions. -/
structure Loop where
  server : Server := {}
  io : SessionId → SessionIo := fun _ => {}

/-- The events of the loop. -/
inductive LoopEvent
  | accept (sid : SessionId) (now : Instant)
  /-- The socket of the session delivers a chunk to the outstanding read. -/
  | deliver (sid : SessionId) (chunk : Bytes)
  /-- The socket of the session takes `n` bytes of the outstanding write. -/
  | take (sid : SessionId) (n : ℕ)
  /-- The handler of the read runs; `contents` has what the handlers of the messages it completes
  read. -/
  | readDone (sid : SessionId) (contents : List (Request × Instant)) (now : Instant)
  | writeDone (sid : SessionId) (now : Instant)
  | close (sid : SessionId) (now : Instant)
  | release (sid : SessionId)
  | sweep (order : List PlayerId) (now : Instant)
  deriving DecidableEq

/-- The `msg_id` under which a request arrives. -/
def Request.msgId : Request → UInt16
  | .login _ => MessageId.LoginReq
  | .match _ => MessageId.MatchReq
  | .chat _ => MessageId.ChatReq
  | .heartbeat _ => MessageId.HeartbeatReq
  | .reconnect _ => MessageId.ReconnectReq
  | .ranking _ _ => MessageId.RankingReq
  | .unregistered msgId => msgId

/-- The ids that `GameServer::start` registers a handler for. -/
def registeredIds : List UInt16 :=
  [MessageId.LoginReq, MessageId.MatchReq, MessageId.ChatReq, MessageId.HeartbeatReq,
    MessageId.ReconnectReq, MessageId.RankingReq]

/-- The dispatcher hands a message with this id to the handler of the request, or to none. -/
def Request.fits (req : Request) (msgId : UInt16) : Bool :=
  match req with
  | .unregistered id => id = msgId ∧ msgId ∉ registeredIds
  | req => req.msgId = msgId

/-- The state of `parse_packet` between two messages: the loop, the contents of the messages to
come, and the server events so far, latest first. -/
structure Turn where
  loop : Loop
  contents : List (Request × Instant)
  served : History := []

namespace Loop

variable (serialize : Response → Bytes)

/-- Change the I/O of one session. -/
def setIo (w : Loop) (sid : SessionId) (f : SessionIo → SessionIo) : Loop :=
  { w with io := fun sid' => if sid' = sid then f (w.io sid') else w.io sid' }

/-- The messages sent, one after the other, through `Session::send`. -/
def sendAll (io : SessionId → SessionIo) (msgs : List (SessionId × Response)) :
    SessionId → SessionIo :=
  msgs.foldl (fun io x sid' =>
    if sid' = x.1 then (io sid').send ⟨x.2.msgId, serialize x.2⟩ else io sid') io

/-- The server after a handler, with what the handler sent. -/
def deliver (w : Loop) (server : Server) : Loop where
  server := server
  io := sendAll serialize w.io (server.sent.drop w.server.sent.length)

/-- One message of session `sid`, handed to its handler. -/
def dispatch (sid : SessionId) (t : Turn) (m : Message) : Except Unit Turn :=
  match t.contents with
  | [] => .error ()
  | (req, now) :: contents =>
    if req.fits m.msgId then
      let w := t.loop.setIo sid fun s => { s with dispatched := s.dispatched ++ [(s.closed, m)] }
      match w.server.handlePacket sid req now with
      | .ok server => .ok
        { loop := w.deliver serialize server
          contents := contents
          served := (w.server, .request sid req now) :: t.served }
      | .error _ => .error ()
    else .error ()

/-- `Session::close`, with the callback of `do_accept`. -/
def close (w : Loop) (sid : SessionId) (now : Instant) : Option (Loop × History) :=
  (w.server.close sid now).toOption.map fun server =>
    (({ w with server := server } : Loop).setIo sid SessionIo.close, [(w.server, .close sid now)])

/-- The server as the host of the receive path of session `sid`. -/
def host (sid : SessionId) (now : Instant) : Host Turn Unit where
  dispatch := dispatch serialize sid
  close t := (t.loop.close sid now).elim t fun r => { t with loop := r.1, served := r.2 ++ t.served }

/-- The end of the handler of a read: `recv_buffer_` as `parse_packet` left it, and the next
read. -/
def rearm (buffer : Bytes) (s : SessionIo) : SessionIo :=
  if s.closed then { s with recvBuffer := buffer } else { s with recvBuffer := buffer }.doRead

/-- The handler of a read of session `sid`. -/
def handleRead (w : Loop) (sid : SessionId) (contents : List (Request × Instant)) (now : Instant) :
    Option Bytes → Option (Loop × History)
  | none => w.close sid now
  | some chunk =>
    let buffer := (w.io sid).recvBuffer ++ chunk
    let w := w.setIo sid fun s => { s with recvBuffer := buffer, received := s.received ++ chunk }
    match parsePacket (host serialize sid now) (buffer.length + 1) ⟨w, contents, []⟩ buffer with
    | some (.ok (⟨w', [], served⟩, buffer')) =>
      some (w'.setIo sid (rearm buffer'), served)
    | _ => none

/-- The handler of a write of session `sid`. -/
def handleWrite (w : Loop) (sid : SessionId) (now : Instant) :
    Option ℕ → Option (Loop × History)
  | none => w.close sid now
  | some n => some (w.setIo sid fun s => s.handleWrite (some n), [])

/-- An event that the server handles by itself. -/
def serve (w : Loop) (e : Event) : Option (Loop × History) :=
  (w.server.step e).toOption.map fun server => ({ w with server := server }, [(w.server, e)])

/-- One event, handled to its end, and the server events it consists of, latest first.  There is
no next state where the event cannot come or a handler fails. -/
def step (w : Loop) : LoopEvent → Option (Loop × History)
  | .accept sid now =>
    (w.serve (.accept sid now)).map fun r => (r.1.setIo sid fun _ => ({} : SessionIo).start, r.2)
  | .deliver sid chunk =>
    if (w.io sid).Enabled (.deliver chunk) then
      some (w.setIo sid fun s => s.step (.deliver chunk), [])
    else none
  | .take sid n =>
    if (w.io sid).Enabled (.take n) then some (w.setIo sid fun s => s.step (.take n), []) else none
  | .readDone sid contents now =>
    match (w.io sid).reads with
    | [] => none
    | read :: reads =>
      (w.setIo sid fun s => { s with reads := reads }).handleRead serialize sid contents now read
  | .writeDone sid now =>
    match (w.io sid).writes with
    | [] => none
    | (_, taken) :: writes =>
      (w.setIo sid fun s => { s with writes := writes }).handleWrite sid now taken
  | .close sid now => w.close sid now
  | .release sid =>
    if (w.io sid).reads = [] ∧ (w.io sid).writes = [] then w.serve (.release sid) else none
  | .sweep order now => w.serve (.sweep order now)

end Loop

/-- The server with its sockets as a transition system.  The events of the server that an event
of the loop consists of must be ones that can come. -/
def loop (serialize : Response → Bytes) : Transition.System Loop LoopEvent where
  init := {}
  step w e w' := ∃ served, w.step serialize e = some (w', served) ∧ ∀ x ∈ served, x.1.Enabled x.2

/-- The events one after the other make a run that ends as `Q` says, if the evaluation says
so. -/
theorem Loop.exists_run (serialize : Response → Bytes) {Q : List (Loop × LoopEvent) → Loop → Prop}
    [∀ tr w, Decidable (Q tr w)] (es : List LoopEvent)
    (h : (Transition.System.replay (fun w e => (step serialize w e).bind fun r =>
      if r.2.all fun x => x.1.enables x.2 then some r.1 else none) [] {} es).any
        (fun x => decide (Q x.1 x.2)) = true) :
    ∃ tr w, (loop serialize).Run tr w ∧ Q tr w := by
  refine Transition.System.exists_run_of_replay (M := loop serialize) (fun w e w' hw => ?_) es h
  obtain ⟨r, hr, hw⟩ := Option.bind_eq_some_iff.1 hw
  split_ifs at hw with hen
  obtain rfl := Option.some.inj hw
  exact ⟨r.2, hr, fun x hx => Server.enabled_of_enables (List.all_eq_true.1 hen x hx)⟩

/-! ### What the events do to the sockets -/

namespace SessionIo

theorem closed_send (s : SessionIo) (msg : Message) : (s.send msg).closed = s.closed := by
  unfold send doWrite
  dsimp only
  split
  · split
    · rfl
    · split <;> rfl
  · rfl

theorem closed_handleWrite (s : SessionIo) (n : ℕ) : (s.handleWrite (some n)).closed = s.closed := by
  unfold handleWrite doWrite
  dsimp only
  split
  · rfl
  · split
    · rfl
    · split <;> rfl

theorem closed_close (s : SessionIo) : s.close.closed = true := by
  unfold close
  split
  · assumption
  · rfl

end SessionIo

namespace Loop

variable {serialize : Response → Bytes}

/-- Sending touches the write side of the sockets only. -/
theorem sendAll_frame (io : SessionId → SessionIo) (msgs : List (SessionId × Response))
    (sid : SessionId) : (io sid).SameReading (sendAll serialize io msgs sid) ∧
      (sendAll serialize io msgs sid).closed = (io sid).closed := by
  unfold sendAll
  induction msgs generalizing io with
  | nil => exact ⟨.refl _, rfl⟩
  | cons x msgs ih =>
    obtain ⟨h₁, h₂⟩ := ih fun sid' =>
      if sid' = x.1 then (io sid').send ⟨x.2.msgId, serialize x.2⟩ else io sid'
    split_ifs at h₁ h₂
    · exact ⟨(SessionIo.sameReading_call _ (.send _)).trans h₁, h₂.trans (SessionIo.closed_send ..)⟩
    · exact ⟨h₁, h₂⟩

/-- What one message does: its handler runs as an event of the server, the message is kept as
dispatched, and what the handler sent is sent. -/
theorem dispatch_ok {sid : SessionId} {t t' : Turn} {m : Message}
    (h : dispatch serialize sid t m = .ok t') :
    ∃ req now, (t.loop.server.step (.request sid req now) = .ok t'.loop.server) ∧
      t'.served = (t.loop.server, .request sid req now) :: t.served ∧
      t'.loop.io = sendAll serialize (t.loop.setIo sid fun s =>
          { s with dispatched := s.dispatched ++ [(s.closed, m)] }).io
        (t'.loop.server.sent.drop t.loop.server.sent.length) := by
  unfold dispatch at h
  split at h
  · cases h
  · rename_i req now contents _
    split_ifs at h
    dsimp only at h
    split at h
    · rename_i s' hs'
      obtain rfl := Except.ok.inj h
      exact ⟨req, now, hs', rfl, rfl⟩
    · cases h

/-- The flags `closed_` stay as they are. -/
theorem dispatch_frame {sid : SessionId} {t t' : Turn} {m : Message}
    (h : dispatch serialize sid t m = .ok t') (sid' : SessionId) :
    (t'.loop.io sid').closed = (t.loop.io sid').closed ∧
      (t'.loop.io sid').dispatched = (t.loop.io sid').dispatched ++
        if sid' = sid then [((t.loop.io sid).closed, m)] else [] := by
  obtain ⟨req, now, -, -, hio⟩ := dispatch_ok h
  obtain ⟨h₁, h₂⟩ := @sendAll_frame serialize
    (t.loop.setIo sid fun s => { s with dispatched := s.dispatched ++ [(s.closed, m)] }).io
    (t'.loop.server.sent.drop t.loop.server.sent.length) sid'
  rw [hio]
  refine ⟨h₂.trans ?_, h₁.dispatched.trans ?_⟩
  · simp only [setIo]
    split_ifs <;> rfl
  · simp only [setIo]
    split_ifs with hs
    · rw [hs]
    · rw [List.append_nil]

/-- What the messages of one read do, as events of the server and to the sockets. -/
structure Dispatched (sid : SessionId) (ms : List Message) (t t' : Turn) (served : History) :
    Prop where
  served_eq : t'.served = served ++ t.served
  served_nil : ms = [] → served = []
  request : ∀ x ∈ served, ∃ req now, x.2 = .request sid req now
  closed_eq : ∀ sid', (t'.loop.io sid').closed = (t.loop.io sid').closed
  dispatched_eq : ∀ sid', (t'.loop.io sid').dispatched = (t.loop.io sid').dispatched ++
    if sid' = sid then ms.map (Prod.mk (t.loop.io sid).closed) else []
  run : ∀ tr, GameServer.server.Run tr t.loop.server → (∀ x ∈ served, x.1.Enabled x.2) →
    GameServer.server.Run (served ++ tr) t'.loop.server
  closedFlag_eq : (∀ x ∈ served, x.1.Enabled x.2) → ∀ sid',
    t'.loop.server.core.closedFlag sid' = t.loop.server.core.closedFlag sid' ∧
      ∀ x ∈ served, x.1.core.closedFlag sid' = t.loop.server.core.closedFlag sid'

theorem foldlM_dispatch {sid : SessionId} {ms : List Message} {t t' : Turn}
    (h : ms.foldlM (dispatch serialize sid) t = .ok t') : ∃ served, Dispatched sid ms t t' served := by
  induction ms generalizing t with
  | nil =>
    obtain rfl := Except.ok.inj h
    exact ⟨[], rfl, fun _ => rfl, by simp, fun _ => rfl, fun sid' => by simp, fun _ hrun _ => hrun,
      fun _ sid' => ⟨rfl, by simp⟩⟩
  | cons m ms ih =>
    rw [List.foldlM_cons] at h
    cases hm : dispatch serialize sid t m with
    | error u => simp [hm, bind, Except.bind] at h
    | ok t₁ =>
      rw [hm] at h
      obtain ⟨served, hd⟩ := ih h
      obtain ⟨req, now, hstep, hserved, -⟩ := dispatch_ok hm
      have hio := dispatch_frame hm
      refine ⟨served ++ [(t.loop.server, .request sid req now)], ?_⟩
      constructor
      case served_eq => rw [hd.served_eq, hserved, List.append_assoc]; rfl
      case served_nil => exact fun hnil => absurd hnil (List.cons_ne_nil m ms)
      case request =>
        intro x hx
        rcases List.mem_append.1 hx with hx | hx
        · exact hd.request x hx
        · rw [List.mem_singleton.1 hx]
          exact ⟨req, now, rfl⟩
      case closed_eq => exact fun sid' => (hd.closed_eq sid').trans (hio sid').1
      case dispatched_eq =>
        intro sid'
        rw [hd.dispatched_eq, (hio sid').2, (hio sid).1, List.append_assoc]
        split_ifs <;> rfl
      case run =>
        intro tr hrun hen
        rw [List.append_assoc]
        refine hd.run _ (hrun.cons ⟨?_, hstep⟩) fun x hx => hen x (List.mem_append_left _ hx)
        exact hen _ (List.mem_append_right _ (List.mem_singleton_self _))
      case closedFlag_eq =>
        intro hen sid'
        have hfirst : GameServer.server.step t.loop.server (.request sid req now) t₁.loop.server :=
          ⟨hen _ (List.mem_append_right _ (List.mem_singleton_self _)), hstep⟩
        have hkeep : t₁.loop.server.core.closedFlag sid' = t.loop.server.core.closedFlag sid' :=
          Server.closedFlag_step hfirst sid'
        obtain ⟨hlast, hall⟩ := hd.closedFlag_eq (fun x hx => hen x (List.mem_append_left _ hx)) sid'
        refine ⟨hlast.trans hkeep, fun x hx => ?_⟩
        rcases List.mem_append.1 hx with hx | hx
        · exact (hall x hx).trans hkeep
        · rw [List.mem_singleton.1 hx]

/-! ### One event -/

/-- The handler of a read that delivered a chunk: `parse_packet` hands the messages that are
complete to their handlers, keeps the rest, and the next read is started. -/
theorem handleRead_some {w w' : Loop} {sid : SessionId} {contents : List (Request × Instant)}
    {now : Instant} {chunk buffer : Bytes} {served : History}
    (hbuffer : (w.io sid).recvBuffer ++ chunk = buffer)
    (h : w.handleRead serialize sid contents now (some chunk) = some (w', served)) :
    ∃ w₁, (codec.drain buffer).1.foldlM (dispatch serialize sid)
        { loop := w.setIo sid fun s =>
            { s with recvBuffer := buffer, received := s.received ++ chunk }
          contents := contents } = .ok ⟨w₁, [], served⟩ ∧
      w' = w₁.setIo sid (rearm (codec.drain buffer).2) := by
  have hturns : (codec.drain buffer).1.length < buffer.length + 1 := by
    have hlen : HEADER_SIZE * (codec.drain buffer).1.length + (codec.drain buffer).2.length ≤
      buffer.length := codec.length_drain buffer
    unfold HEADER_SIZE at hlen
    omega
  unfold handleRead at h
  dsimp only at h
  rw [hbuffer, parsePacket_eq (host serialize sid now) _ hturns] at h
  cases hfold : (codec.drain buffer).1.foldlM (host serialize sid now).dispatch
      { loop := w.setIo sid fun s =>
          { s with recvBuffer := buffer, received := s.received ++ chunk }
        contents := contents } with
  | error u => simp [hfold, Except.map] at h
  | ok t =>
    obtain ⟨w₁, contents', served'⟩ := t
    cases contents' with
    | cons c cs => simp [hfold, Except.map] at h
    | nil =>
      simp only [hfold, Except.map, Option.some.injEq, Prod.mk.injEq] at h
      obtain ⟨rfl, rfl⟩ := h
      exact ⟨w₁, hfold, rfl⟩

/-- What an event does: it is handled by the server, is for the socket of one session, or is the
handler of a read or a write that failed or did not. -/
inductive Stepped (serialize : Response → Bytes) (w : Loop) : LoopEvent → Loop → History → Prop
  | accept {sid : SessionId} {now : Instant} {w₁ : Loop} {served : History}
      (hserve : w.serve (.accept sid now) = some (w₁, served)) :
      Stepped serialize w (.accept sid now) (w₁.setIo sid fun _ => ({} : SessionIo).start) served
  | deliver {sid : SessionId} {chunk : Bytes} (hen : (w.io sid).Enabled (.deliver chunk)) :
      Stepped serialize w (.deliver sid chunk) (w.setIo sid fun s => s.step (.deliver chunk)) []
  | take {sid : SessionId} {n : ℕ} (hen : (w.io sid).Enabled (.take n)) :
      Stepped serialize w (.take sid n) (w.setIo sid fun s => s.step (.take n)) []
  | readFailed {sid : SessionId} {contents : List (Request × Instant)} {now : Instant}
      {reads : List (Option Bytes)} {w' : Loop} {served : History}
      (hreads : (w.io sid).reads = none :: reads)
      (hclose : (w.setIo sid fun s => { s with reads := reads }).close sid now = some (w', served)) :
      Stepped serialize w (.readDone sid contents now) w' served
  | read {sid : SessionId} {contents : List (Request × Instant)} {now : Instant} {chunk : Bytes}
      {reads : List (Option Bytes)} {w₁ : Loop} {served : History}
      (hreads : (w.io sid).reads = some chunk :: reads)
      (hfold : (codec.drain ((w.io sid).recvBuffer ++ chunk)).1.foldlM (dispatch serialize sid)
        { loop := (w.setIo sid fun s => { s with reads := reads }).setIo sid fun s => { s with
            recvBuffer := (w.io sid).recvBuffer ++ chunk
            received := s.received ++ chunk }
          contents := contents } = .ok ⟨w₁, [], served⟩) :
      Stepped serialize w (.readDone sid contents now)
        (w₁.setIo sid (rearm (codec.drain ((w.io sid).recvBuffer ++ chunk)).2)) served
  | writeFailed {sid : SessionId} {now : Instant} {packet : Bytes}
      {writes : List (Bytes × Option ℕ)} {w' : Loop} {served : History}
      (hwrites : (w.io sid).writes = (packet, none) :: writes)
      (hclose : (w.setIo sid fun s => { s with writes := writes }).close sid now = some (w', served)) :
      Stepped serialize w (.writeDone sid now) w' served
  | written {sid : SessionId} {now : Instant} {packet : Bytes} {n : ℕ}
      {writes : List (Bytes × Option ℕ)} (hwrites : (w.io sid).writes = (packet, some n) :: writes) :
      Stepped serialize w (.writeDone sid now) ((w.setIo sid fun s => { s with writes := writes }).setIo
        sid fun s => s.handleWrite (some n)) []
  | close {sid : SessionId} {now : Instant} {w' : Loop} {served : History}
      (hclose : w.close sid now = some (w', served)) : Stepped serialize w (.close sid now) w' served
  | release {sid : SessionId} {w' : Loop} {served : History}
      (hserve : w.serve (.release sid) = some (w', served)) :
      Stepped serialize w (.release sid) w' served
  | sweep {order : List PlayerId} {now : Instant} {w' : Loop} {served : History}
      (hserve : w.serve (.sweep order now) = some (w', served)) :
      Stepped serialize w (.sweep order now) w' served

theorem stepped_of_step {w w' : Loop} {e : LoopEvent} {served : History}
    (h : w.step serialize e = some (w', served)) : Stepped serialize w e w' served := by
  cases e with
  | accept sid now =>
    rw [step] at h
    obtain ⟨r, hr, heq⟩ := Option.map_eq_some_iff.1 h
    obtain ⟨rfl, rfl⟩ := Prod.mk.inj heq
    exact .accept hr
  | deliver sid chunk =>
    simp only [step] at h
    split_ifs at h with hen
    obtain ⟨rfl, rfl⟩ := Prod.mk.inj (Option.some.inj h)
    exact .deliver hen
  | take sid n =>
    simp only [step] at h
    split_ifs at h with hen
    obtain ⟨rfl, rfl⟩ := Prod.mk.inj (Option.some.inj h)
    exact .take hen
  | readDone sid contents now =>
    simp only [step] at h
    split at h
    · cases h
    · rename_i read reads hreads
      cases read with
      | none => exact .readFailed hreads h
      | some chunk =>
        have hbuffer : ((w.setIo sid fun s => { s with reads := reads }).io sid).recvBuffer ++ chunk =
            (w.io sid).recvBuffer ++ chunk := by simp only [setIo, if_true]
        obtain ⟨w₁, hfold, rfl⟩ := handleRead_some hbuffer h
        exact .read hreads hfold
  | writeDone sid now =>
    simp only [step] at h
    split at h
    · cases h
    · rename_i packet taken writes hwrites
      cases taken with
      | none => exact .writeFailed hwrites h
      | some n =>
        obtain ⟨rfl, rfl⟩ := Prod.mk.inj (Option.some.inj h)
        exact .written hwrites
  | close sid now => exact .close h
  | release sid =>
    simp only [step] at h
    split_ifs at h
    exact .release h
  | sweep order now => exact .sweep h

/-- The messages of session `sid` that an event of the loop completes. -/
def completes (w : Loop) (sid : SessionId) : LoopEvent → List Message
  | .readDone sid' _ _ =>
    match (w.io sid').reads.head? with
    | some (some chunk) =>
      if sid = sid' then (codec.drain ((w.io sid').recvBuffer ++ chunk)).1 else []
    | _ => []
  | _ => []

/-- The sockets and the server agree on which sessions are closed. -/
def Synced (w : Loop) : Prop :=
  ∀ sid b, w.server.core.closedFlag sid = some b → (w.io sid).closed = b

/-- What an event of the loop does to the server, and to the flags and the messages
dispatched of the sockets. -/
structure StepSpec (w : Loop) (e : LoopEvent) (w' : Loop) (served : History) : Prop where
  run : ∀ tr, GameServer.server.Run tr w.server → GameServer.server.Run (served ++ tr) w'.server
  synced : w.Synced → w'.Synced
  dispatched : ∀ sid, ((∃ now, e = .accept sid now) ∧ (w'.io sid).dispatched = []) ∨
    (w'.io sid).dispatched = (w.io sid).dispatched ++
      (w.completes sid e).map (Prod.mk (w.io sid).closed)
  requests : ∀ x ∈ served, ∀ sid req now, x.2 = .request sid req now →
    x.1.core.closedFlag sid = w.server.core.closedFlag sid ∧ w.completes sid e ≠ []

theorem eq_ok_of_toOption {α ε : Type*} {x : Except ε α} {a : α} (h : x.toOption = some a) :
    x = .ok a := by
  cases x with
  | error _ => cases h
  | ok b => rw [Option.some.inj h]

/-- An update of one session that keeps its flag and what it dispatched keeps those of all. -/
theorem setIo_keeps {w : Loop} {sid : SessionId} {f : SessionIo → SessionIo}
    (hclosed : (f (w.io sid)).closed = (w.io sid).closed)
    (hdisp : (f (w.io sid)).dispatched = (w.io sid).dispatched) (sid' : SessionId) :
    ((w.setIo sid f).io sid').closed = (w.io sid').closed ∧
      ((w.setIo sid f).io sid').dispatched = (w.io sid').dispatched := by
  simp only [setIo]
  split_ifs with hs
  · rw [hs]
    exact ⟨hclosed, hdisp⟩
  · exact ⟨rfl, rfl⟩

/-- An event at the sockets alone. -/
theorem StepSpec.of_io {w w' : Loop} {e : LoopEvent} (hserver : w'.server = w.server)
    (hio : ∀ sid, (w'.io sid).closed = (w.io sid).closed ∧
      (w'.io sid).dispatched = (w.io sid).dispatched)
    (hnone : ∀ sid, w.completes sid e = []) : StepSpec w e w' [] where
  run tr hrun := by
    rw [hserver]
    exact hrun
  synced hsync sid b hb := by
    rw [(hio sid).1]
    exact hsync sid b (hserver ▸ hb)
  dispatched sid := .inr (by rw [hnone, List.map_nil, List.append_nil, (hio sid).2])
  requests x hx := absurd hx List.not_mem_nil

/-- An event of the server alone, which sets no flag. -/
theorem StepSpec.of_serve {w w' : Loop} {e : LoopEvent} {ev : Event} {served : History}
    (h : w.serve ev = some (w', served)) (hen : ∀ x ∈ served, x.1.Enabled x.2)
    (hflag : ∀ sid, ev.setsClosed sid = none) (hreq : ∀ sid req now, ev ≠ .request sid req now)
    (hnone : ∀ sid, w.completes sid e = []) : StepSpec w e w' served := by
  unfold serve at h
  obtain ⟨s', hs', heq⟩ := Option.map_eq_some_iff.1 h
  obtain ⟨rfl, rfl⟩ := Prod.mk.inj heq
  have hstep : GameServer.server.step w.server ev s' :=
    ⟨hen _ (List.mem_singleton_self _), eq_ok_of_toOption hs'⟩
  constructor
  case run => exact fun tr hrun => hrun.cons hstep
  case synced =>
    intro hsync sid b hb
    have hkeep := Server.closedFlag_step hstep sid
    rw [hflag, Option.none_or] at hkeep
    exact hsync sid b (hkeep ▸ hb)
  case dispatched =>
    intro sid
    right
    rw [hnone, List.map_nil, List.append_nil]
  case requests =>
    intro x hx sid req now hxe
    rw [List.mem_singleton.1 hx] at hxe
    exact absurd hxe (hreq sid req now)

/-- An accept makes a session whose flag is clear, in the server and at the socket. -/
theorem StepSpec.of_accept {w w₁ : Loop} {sid : SessionId} {now : Instant} {served : History}
    (h : w.serve (.accept sid now) = some (w₁, served)) (hen : ∀ x ∈ served, x.1.Enabled x.2) :
    StepSpec w (.accept sid now) (w₁.setIo sid fun _ => ({} : SessionIo).start) served := by
  unfold serve at h
  obtain ⟨s', hs', heq⟩ := Option.map_eq_some_iff.1 h
  obtain ⟨rfl, rfl⟩ := Prod.mk.inj heq
  have hstep : GameServer.server.step w.server (.accept sid now) s' :=
    ⟨hen _ (List.mem_singleton_self _), eq_ok_of_toOption hs'⟩
  constructor
  case run => exact fun tr hrun => hrun.cons hstep
  case synced =>
    intro hsync sid' b hb
    have hkeep := Server.closedFlag_step hstep sid'
    rw [Event.setsClosed] at hkeep
    simp only [setIo] at hb ⊢
    split_ifs at hkeep ⊢
    · rw [hkeep] at hb
      exact Option.some.inj hb
    · rw [hkeep, Option.none_or] at hb
      exact hsync sid' b hb
  case dispatched =>
    intro sid'
    simp only [setIo]
    by_cases hs : sid' = sid
    · rw [if_pos hs, hs]
      exact .inl ⟨⟨now, rfl⟩, rfl⟩
    · rw [if_neg hs]
      exact .inr (List.append_nil _).symm
  case requests =>
    intro x hx sid' req now' hxe
    rw [List.mem_singleton.1 hx] at hxe
    cases hxe

/-- A close sets the flag in the server and at the socket. -/
theorem StepSpec.of_close {w w₀ w' : Loop} {e : LoopEvent} {sid : SessionId} {now : Instant}
    {served : History} (h : w₀.close sid now = some (w', served))
    (hen : ∀ x ∈ served, x.1.Enabled x.2) (hserver : w₀.server = w.server)
    (hio : ∀ sid, (w₀.io sid).closed = (w.io sid).closed ∧
      (w₀.io sid).dispatched = (w.io sid).dispatched)
    (hnone : ∀ sid, w.completes sid e = []) : StepSpec w e w' served := by
  unfold close at h
  obtain ⟨s', hs', heq⟩ := Option.map_eq_some_iff.1 h
  obtain ⟨rfl, rfl⟩ := Prod.mk.inj heq
  have hstep : GameServer.server.step w₀.server (.close sid now) s' :=
    ⟨hen _ (List.mem_singleton_self _), eq_ok_of_toOption hs'⟩
  constructor
  case run =>
    intro tr hrun
    rw [← hserver] at hrun
    exact hrun.cons hstep
  case synced =>
    intro hsync sid' b hb
    have hkeep := Server.closedFlag_step hstep sid'
    rw [Event.setsClosed] at hkeep
    simp only [setIo] at hb ⊢
    split_ifs at hkeep ⊢ with hs
    · rw [hkeep] at hb
      rw [SessionIo.closed_close]
      exact Option.some.inj hb
    · rw [hkeep, Option.none_or, hserver] at hb
      rw [(hio sid').1]
      exact hsync sid' b hb
  case dispatched =>
    intro sid'
    right
    rw [hnone, List.map_nil, List.append_nil]
    simp only [setIo]
    split_ifs
    · rw [(SessionIo.sameReading_close _).dispatched, (hio sid').2]
    · exact (hio sid').2
  case requests =>
    intro x hx sid' req now' hxe
    rw [List.mem_singleton.1 hx] at hxe
    cases hxe

theorem rearm_frame {buffer : Bytes} {s : SessionIo} :
    (rearm buffer s).closed = s.closed ∧ (rearm buffer s).dispatched = s.dispatched := by
  unfold rearm
  split <;> exact ⟨rfl, rfl⟩

/-- A read that was completed: its messages are handled as events of the server. -/
theorem StepSpec.of_read {w w₁ : Loop} {sid : SessionId} {contents : List (Request × Instant)}
    {now : Instant} {chunk : Bytes} {reads : List (Option Bytes)} {served : History}
    (hreads : (w.io sid).reads = some chunk :: reads)
    (hfold : (codec.drain ((w.io sid).recvBuffer ++ chunk)).1.foldlM (dispatch serialize sid)
      { loop := (w.setIo sid fun s => { s with reads := reads }).setIo sid fun s => { s with
          recvBuffer := (w.io sid).recvBuffer ++ chunk
          received := s.received ++ chunk }
        contents := contents } = .ok ⟨w₁, [], served⟩)
    (hen : ∀ x ∈ served, x.1.Enabled x.2) : StepSpec w (.readDone sid contents now)
      (w₁.setIo sid (rearm (codec.drain ((w.io sid).recvBuffer ++ chunk)).2)) served := by
  obtain ⟨served', hd⟩ := foldlM_dispatch hfold
  obtain rfl : served = served' := hd.served_eq.trans (List.append_nil _)
  have hms : ∀ sid', w.completes sid' (.readDone sid contents now) =
      if sid' = sid then (codec.drain ((w.io sid).recvBuffer ++ chunk)).1 else [] := fun sid' => by
    simp only [completes, hreads, List.head?_cons]
  -- Before the first message and after the last one only the read side changes.
  have hio : ∀ sid',
      ((w₁.setIo sid (rearm (codec.drain ((w.io sid).recvBuffer ++ chunk)).2)).io sid').closed =
        (w.io sid').closed ∧
      ((w₁.setIo sid (rearm (codec.drain ((w.io sid).recvBuffer ++ chunk)).2)).io sid').dispatched =
        (w.io sid').dispatched ++
          (w.completes sid' (.readDone sid contents now)).map (Prod.mk (w.io sid').closed) := by
    intro sid'
    have hclosed := hd.closed_eq sid'
    have hdisp := hd.dispatched_eq sid'
    rw [hms]
    simp only [setIo] at hclosed hdisp ⊢
    split_ifs at hclosed hdisp ⊢ with hs
    · subst hs
      rw [rearm_frame.1, rearm_frame.2]
      exact ⟨hclosed, hdisp⟩
    · exact ⟨hclosed, hdisp⟩
  constructor
  case run => exact fun tr hrun => hd.run tr hrun hen
  case synced =>
    intro hsync sid' b hb
    rw [(hio sid').1]
    exact hsync sid' b ((hd.closedFlag_eq hen sid').1 ▸ hb)
  case dispatched => exact fun sid' => .inr (hio sid').2
  case requests =>
    intro x hx sid' req now' hxe
    obtain ⟨req', now'', hxe'⟩ := hd.request x hx
    obtain ⟨rfl, -, -⟩ := Event.request.inj (hxe.symm.trans hxe')
    refine ⟨(hd.closedFlag_eq hen sid').2 x hx, ?_⟩
    rw [hms, if_pos rfl]
    intro hnil
    rw [hd.served_nil hnil] at hx
    exact absurd hx List.not_mem_nil

/-- **What an event of the loop does.** -/
theorem step_spec {w w' : Loop} {e : LoopEvent} {served : History}
    (h : w.step serialize e = some (w', served)) (hen : ∀ x ∈ served, x.1.Enabled x.2) :
    StepSpec w e w' served := by
  cases stepped_of_step h with
  | accept hserve => exact .of_accept hserve hen
  | deliver => exact .of_io rfl (setIo_keeps rfl rfl) fun _ => rfl
  | take =>
    refine .of_io rfl (setIo_keeps ?_ ?_) fun _ => rfl
    all_goals
      unfold SessionIo.step
      dsimp only
      split <;> rfl
  | readFailed hreads hclose =>
    refine .of_close hclose hen rfl (setIo_keeps rfl rfl) fun sid' => ?_
    simp only [completes, hreads, List.head?_cons]
  | read hreads hfold => exact .of_read hreads hfold hen
  | writeFailed _ hclose => exact .of_close hclose hen rfl (setIo_keeps rfl rfl) fun _ => rfl
  | @written sid _ _ _ writes =>
    refine .of_io rfl (fun sid' => ?_) fun _ => rfl
    have htaken := @setIo_keeps w sid (fun s => { s with writes := writes }) rfl rfl sid'
    obtain ⟨hclosed, hdisp⟩ := setIo_keeps (f := fun s => s.handleWrite (some _))
      (SessionIo.closed_handleWrite ..) (SessionIo.sameReading_handleWrite ..).dispatched sid'
    exact ⟨hclosed.trans htaken.1, hdisp.trans htaken.2⟩
  | close hclose => exact .of_close hclose hen rfl (fun _ => ⟨rfl, rfl⟩) fun _ => rfl
  | release hserve | sweep hserve =>
    exact .of_serve hserve hen (fun _ => rfl) (fun _ _ _ he => by cases he) fun _ => rfl

/-- The server events that an event of the loop consists of, latest first. -/
def served (serialize : Response → Bytes) (w : Loop) (e : LoopEvent) : History :=
  ((w.step serialize e).map Prod.snd).getD []

theorem stepSpec_served {w w' : Loop} {e : LoopEvent} (h : (loop serialize).step w e w') :
    StepSpec w e w' (w.served serialize e) ∧ ∀ x ∈ w.served serialize e, x.1.Enabled x.2 := by
  obtain ⟨served', hstep, hen⟩ := h
  have heq : w.served serialize e = served' := by rw [served, hstep]; rfl
  rw [heq]
  exact ⟨step_spec hstep hen, hen⟩

/-- **A run of the loop is a run of the server**, made of the events its steps consist of. -/
theorem server_run {tr : List (Loop × LoopEvent)} {w : Loop} (h : (loop serialize).Run tr w) :
    ∃ tr', GameServer.server.Run tr' w.server ∧
      ∀ y ∈ tr', ∃ x ∈ tr, y ∈ x.1.served serialize x.2 := by
  induction h with
  | nil => exact ⟨[], .nil, fun y hy => absurd hy List.not_mem_nil⟩
  | @cons tr w w' e _ hs ih =>
    obtain ⟨tr', hrun, hmem⟩ := ih
    refine ⟨_, (stepSpec_served hs).1.run tr' hrun, fun y hy => ?_⟩
    rcases List.mem_append.1 hy with hy | hy
    · exact ⟨(w, e), List.mem_cons_self .., hy⟩
    · obtain ⟨x, hx, hyx⟩ := hmem y hy
      exact ⟨x, List.mem_cons_of_mem _ hx, hyx⟩

/-- The flags agree in every state of every run. -/
theorem synced {tr : List (Loop × LoopEvent)} {w : Loop} (h : (loop serialize).Run tr w) :
    w.Synced := by
  induction h with
  | nil =>
    intro sid b hb
    cases hb
  | cons _ hs ih => exact (stepSpec_served hs).1.synced ih

end Loop
end GameServer
