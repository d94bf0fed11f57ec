/-
# The reports of a running server

`reporting` is the server together with its `MetricsReporter`, which prints a line between any
two events of the loop.  Whatever an event does to the statistics is a few calls that count
(`counting_of_step`), and so a run with its reports is a run of `packetCalls`, in which a packet
is received and a request of its kind counted for each request, and a packet sent for each message
(`calls_of_run`).  What is known of the counters after any calls then holds of what is printed
(`report_exact`).  No manager has more entries than requests were handled (`sizesLe_of_run`), so
their sizes are printed as they are.
-/

import GameServer.PacketCounters
import GameServer.Runs
import GameServer.Util.MetricsReporter

namespace GameServer

/-- What a registered handler is for. -/
inductive RequestKind
  | login
  | match
  | chat
  | heartbeat
  | ranking
  | reconnect
  deriving DecidableEq

/-- The handler that gets the request, if there is one. -/
def Request.kind : Request → Option RequestKind
  | .login _ => some .login
  | .match _ => some .match
  | .chat _ => some .chat
  | .heartbeat _ => some .heartbeat
  | .reconnect _ => some .reconnect
  | .ranking .. => some .ranking
  | .unregistered _ => none

namespace RequestKind

/-- The call a handler begins with. -/
def incr : RequestKind → MetricsCall
  | login => .incrLoginReq
  | .match => .incrMatchReq
  | chat => .incrChatReq
  | heartbeat => .incrHeartbeatReq
  | ranking => .incrRankingReq
  | reconnect => .incrReconnectReq

theorem incr_ne_packet (k : RequestKind) (d : Direction) :
    k.incr ≠ d.incrPacket ∧ k.incr ≠ d.calcQps := by
  cases k <;> cases d <;> exact ⟨MetricsCall.noConfusion, MetricsCall.noConfusion⟩

end RequestKind

namespace Event

def isRequest : Event → Bool
  | .request .. => true
  | _ => false

/-- The event is a request for the handler. -/
def asks (k : RequestKind) : Event → Bool
  | .request _ req _ => req.kind = some k
  | _ => false

theorem isRequest_of_asks {k : RequestKind} {e : Event} (h : e.asks k = true) :
    e.isRequest = true := by
  cases e with
  | request => rfl
  | accept | close | release | sweep => cases h

end Event

/-! ### The requests of each kind -/

/-- The requests counted. -/
def CallHistory.asked (tr : CallHistory) (k : RequestKind) : ℕ := (tr.map Prod.snd).count k.incr

theorem CallHistory.asked_cons (m : ServerMetrics) (c : MetricsCall) (tr : CallHistory)
    (k : RequestKind) : asked ((m, c) :: tr) k = tr.asked k + if c = k.incr then 1 else 0 := by
  rw [asked, List.map_cons, List.count_cons]
  simp only [asked, beq_iff_eq]

/-- Asking for a rate is no request. -/
theorem CallHistory.asked_calcQps (m : ServerMetrics) (d : Direction) (tr : CallHistory)
    (k : RequestKind) : asked ((m, d.calcQps) :: tr) k = tr.asked k := by
  rw [asked_cons, if_neg (k.incr_ne_packet d).2.symm, Nat.add_zero]

namespace ServerMetrics

def requestCount (m : ServerMetrics) : RequestKind → ℤ
  | .login => m.loginReqCount
  | .match => m.matchReqCount
  | .chat => m.chatReqCount
  | .heartbeat => m.heartbeatReqCount
  | .ranking => m.rankingReqCount
  | .reconnect => m.reconnectReqCount

/-- **What a call does** to the counter of a handler. -/
theorem call_requestCount {m m' : ServerMetrics} {c : MetricsCall} (h : m.call c = some m')
    (k : RequestKind) :
    m'.requestCount k = if c = k.incr then toInt (m.requestCount k + 1) else m.requestCount k := by
  cases c with
  | calcRecvQps | calcSendQps =>
    obtain ⟨⟨qps, m₁⟩, hcalc, rfl⟩ := Option.map_eq_some_iff.1 h
    obtain ⟨_, -, heq⟩ := Option.map_eq_some_iff.1 hcalc
    obtain ⟨rfl, rfl⟩ := Prod.mk.inj heq
    cases k <;> rfl
  | recordHeartbeat rttMs =>
    obtain rfl := Option.some.inj h
    rcases lt_or_ge rttMs 0 with hneg | hneg
    · rw [recordHeartbeat, if_pos hneg]
      cases k <;> rfl
    · rw [recordHeartbeat, if_neg (not_lt.2 hneg)]
      cases k <;> rfl
  | _ =>
    obtain rfl := Option.some.inj h
    cases k <;> rfl

end ServerMetrics

/-- **The counter of a handler after any calls**: the requests counted, as an `int`. -/
theorem requestCount_of_run {tr : CallHistory} {m : ServerMetrics} (h : packetCalls.Run tr m)
    (k : RequestKind) : m.requestCount k = toInt (tr.asked k) := by
  induction h with
  | nil => cases k <;> rfl
  | @cons tr m m' c _ hc ih =>
    rw [ServerMetrics.call_requestCount hc, CallHistory.asked_cons, ih]
    split_ifs
    · rw [toInt_toInt_add, Nat.cast_add, Nat.cast_one]
    · rw [add_zero]

/-! ### The calls of an event -/

/-- The call neither counts a packet nor asks for a rate. -/
def MetricsCall.isPlain : MetricsCall → Bool
  | .incrRecvPacket | .incrSendPacket | .calcRecvQps | .calcSendQps => false
  | _ => true

theorem MetricsCall.ne_of_isPlain {c : MetricsCall} (h : c.isPlain = true) (d : Direction) :
    c ≠ d.incrPacket ∧ c ≠ d.calcQps := by
  constructor <;> rintro rfl <;> cases d <;> cases h

namespace ServerMetrics

/-- The calls lead from one state to the other, and none of them asks for a rate. -/
structure Counting (m : ServerMetrics) (cs : List MetricsCall) (m' : ServerMetrics) : Prop where
  calls : cs.foldlM ServerMetrics.call m = some m'
  counts : ∀ d : Direction, d.calcQps ∉ cs

/-- Calls that count add to the packets, to those since the last rate, and to the requests. -/
theorem Counting.run {m m' : ServerMetrics} {cs : List MetricsCall} (hcs : m.Counting cs m')
    {tr : CallHistory} (h : packetCalls.Run tr m) :
    ∃ tr' : CallHistory, packetCalls.Run tr' m' ∧
      (∀ d : Direction, tr'.packets d = tr.packets d + cs.count d.incrPacket ∧
        tr'.since d = tr.since d + cs.count d.incrPacket) ∧
      ∀ k : RequestKind, tr'.asked k = tr.asked k + cs.count k.incr := by
  obtain ⟨hcalls, hcounts⟩ := hcs
  induction cs generalizing tr m with
  | nil =>
    obtain rfl := Option.some.inj hcalls
    exact ⟨tr, h, fun d => ⟨rfl, rfl⟩, fun k => rfl⟩
  | cons c cs ih =>
    obtain ⟨m₁, hc, hrest⟩ := Option.bind_eq_some_iff.1 hcalls
    obtain ⟨tr', hrun, htr', hasked⟩ := ih (h.cons hc) hrest fun d hd =>
      hcounts d (List.mem_cons_of_mem _ hd)
    refine ⟨tr', hrun, fun d => ?_, fun k => ?_⟩
    · have hne : c ≠ d.calcQps := fun e => hcounts d (e ▸ List.mem_cons_self ..)
      obtain ⟨hpackets, hsince⟩ := htr' d
      rw [hpackets, hsince, CallHistory.packets_cons, CallHistory.since_cons, if_neg hne,
        List.count_cons]
      simp only [beq_iff_eq]
      omega
    · rw [hasked, CallHistory.asked_cons, List.count_cons]
      simp only [beq_iff_eq]
      omega

/-- Messages are counted one after the other. -/
theorem foldlM_incrSendPacket (k : ℕ) (m : ServerMetrics) :
    (List.replicate k MetricsCall.incrSendPacket).foldlM ServerMetrics.call m =
      some (incrSendPacket^[k] m) := by
  induction k generalizing m with
  | zero => rfl
  | succ k ih =>
    rw [List.replicate_succ, Function.iterate_succ_apply, ← ih]
    rfl

/-- **The calls of a request**: one for the packet, those of its handler, and one for each message
the handler sends. -/
theorem counting_request {m m₁ : ServerMetrics} (pre : List MetricsCall)
    (hpre : pre.foldlM ServerMetrics.call m.incrRecvPacket = some m₁)
    (hplain : pre.all MetricsCall.isPlain = true) (n : ℕ) :
    ∃ cs, m.Counting cs (incrSendPacket^[n] m₁) ∧ cs.count .incrRecvPacket = 1 ∧
      cs.count .incrSendPacket = n ∧ ∀ k : RequestKind, cs.count k.incr = pre.count k.incr := by
  have hne : ∀ c ∈ pre, ∀ d : Direction, c ≠ d.incrPacket ∧ c ≠ d.calcQps := fun c hc d =>
    MetricsCall.ne_of_isPlain (List.all_eq_true.1 hplain c hc) d
  have hrecv : pre.count .incrRecvPacket = 0 :=
    List.count_eq_zero.2 fun hd => (hne _ hd .recv).1 rfl
  have hsend : pre.count .incrSendPacket = 0 :=
    List.count_eq_zero.2 fun hd => (hne _ hd .send).1 rfl
  refine ⟨.incrRecvPacket :: (pre ++ List.replicate n .incrSendPacket), ⟨?_, fun d hd => ?_⟩, ?_,
    ?_, fun k => ?_⟩
  · show (pre ++ List.replicate n MetricsCall.incrSendPacket).foldlM ServerMetrics.call
      m.incrRecvPacket = _
    rw [List.foldlM_append, hpre]
    exact foldlM_incrSendPacket n m₁
  · rcases List.mem_cons.1 hd with hd | hd
    · exact Direction.incrPacket_ne_calcQps .recv d hd.symm
    · rcases List.mem_append.1 hd with hd | hd
      · exact (hne _ hd d).2 rfl
      · exact Direction.incrPacket_ne_calcQps .send d (List.eq_of_mem_replicate hd).symm
  · rw [List.count_cons_self, List.count_append, hrecv, List.count_replicate]
    rfl
  · rw [List.count_cons_of_ne MetricsCall.noConfusion, List.count_append, hsend, Nat.zero_add]
    exact List.count_replicate_self
  · have hsent : k.incr ∉ List.replicate n MetricsCall.incrSendPacket := fun hk =>
      (k.incr_ne_packet .send).1 (List.eq_of_mem_replicate hk)
    have hne' : MetricsCall.incrRecvPacket ≠ k.incr := (k.incr_ne_packet .recv).1.symm
    rw [List.count_cons_of_ne hne', List.count_append, List.count_eq_zero.2 hsent, Nat.add_zero]

/-- **Asking for both rates** below `2 ^ 31` packets gives the packets since the last time, and leaves
the totals and the requests. -/
theorem exists_calcQps {m : ServerMetrics} {tr : CallHistory} (h : packetCalls.Run tr m)
    (hlt : ∀ d, tr.packets d < 2 ^ 31) :
    ∃ m₁ m₂, m.calcRecvQps = some ((tr.since .recv : ℤ), m₁) ∧
      m₁.calcSendQps = some ((tr.since .send : ℤ), m₂) ∧
      (∀ d : Direction, m₂.totalPackets d = tr.packets d) ∧
      ∀ k : RequestKind, m₂.requestCount k = toInt (tr.asked k) := by
  obtain ⟨m₁, hqps₁⟩ := ((counts_of_run h .recv).exact_iff.2 (hlt .recv)).qps
  have hrun₁ := h.cons (call_of_qps hqps₁)
  have hlt₁ (d : Direction) : CallHistory.packets ((m, Direction.recv.calcQps) :: tr) d < 2 ^ 31 := by
    rw [CallHistory.packets_calcQps]
    exact hlt d
  obtain ⟨m₂, hqps₂⟩ := ((counts_of_run hrun₁ .send).exact_iff.2 (hlt₁ .send)).qps
  have hrun₂ := hrun₁.cons (call_of_qps hqps₂)
  refine ⟨m₁, m₂, hqps₁, hqps₂, fun d => ?_, fun k => ?_⟩
  · have hexact := (counts_of_run hrun₂ d).exact_iff.2 (by
      rw [CallHistory.packets_calcQps]
      exact hlt₁ d)
    rw [hexact.total, CallHistory.packets_calcQps, CallHistory.packets_calcQps]
  · rw [requestCount_of_run hrun₂, CallHistory.asked_calcQps, CallHistory.asked_calcQps]

/-- Asking for both rates keeps the gauges. -/
theorem gauges_of_calcQps {m m₁ m₂ : ServerMetrics} {recvQps sendQps : ℤ}
    (hrecv : m.calcRecvQps = some (recvQps, m₁)) (hsend : m₁.calcSendQps = some (sendQps, m₂)) :
    m₂.onlinePlayers = m.onlinePlayers ∧ m₂.connectionCount = m.connectionCount ∧
      m₂.roomCount = m.roomCount ∧ m₂.matchQueueSize = m.matchQueueSize := by
  obtain ⟨_, -, heq⟩ := Option.map_eq_some_iff.1 hrecv
  obtain ⟨-, rfl⟩ := Prod.mk.inj heq
  obtain ⟨_, -, heq⟩ := Option.map_eq_some_iff.1 hsend
  obtain ⟨-, rfl⟩ := Prod.mk.inj heq
  exact ⟨rfl, rfl, rfl, rfl⟩

end ServerMetrics

namespace Server

/-- **What an event counts**: a packet received and a request of its kind if it is a request, and a
packet sent for each message. -/
theorem counting_of_step {s s' : Server} {e : Event} (hs : server.step s e s') :
    ∃ cs, s.metrics.Counting cs s'.metrics ∧
      cs.count .incrRecvPacket = (if e.isRequest then 1 else 0) ∧
      s'.sent.length = s.sent.length + cs.count .incrSendPacket ∧
      ∀ k : RequestKind, cs.count k.incr = if e.asks k then 1 else 0 := by
  have hrequest {m₁ : ServerMetrics} (pre : List MetricsCall)
      (hpre : pre.foldlM ServerMetrics.call s.metrics.incrRecvPacket = some m₁)
      (hplain : pre.all MetricsCall.isPlain = true) {sent : List (SessionId × Response)}
      (hsent : s'.sent = s.sent ++ sent)
      (hmetrics : s'.metrics = ServerMetrics.incrSendPacket^[sent.length] m₁)
      (hasks : ∀ k : RequestKind, pre.count k.incr = if e.asks k then 1 else 0) :
      ∃ cs, s.metrics.Counting cs s'.metrics ∧ cs.count .incrRecvPacket = 1 ∧
        s'.sent.length = s.sent.length + cs.count .incrSendPacket ∧
        ∀ k : RequestKind, cs.count k.incr = if e.asks k then 1 else 0 := by
    obtain ⟨cs, hcs, hrecv, hsend, hcount⟩ :=
      ServerMetrics.counting_request pre hpre hplain sent.length
    exact ⟨cs, hmetrics ▸ hcs, hrecv, by rw [hsent, hsend, List.length_append],
      fun k => (hcount k).trans (hasks k)⟩
  have hcase := handled_of_step hs.2
  generalize s.act e = a at hcase
  clear hs
  cases hcase with
  | accept | closed | close | release | sweep =>
    exact ⟨[], ⟨rfl, fun d => List.not_mem_nil⟩, rfl, rfl, fun k => rfl⟩
  | loginRefused | login =>
    exact hrequest [.incrLoginReq] rfl rfl rfl rfl fun k => by cases k <;> rfl
  | matchRefused | wait =>
    exact hrequest [.incrMatchReq] rfl rfl rfl rfl fun k => by cases k <;> rfl
  | room =>
    exact hrequest [.incrMatchReq] rfl rfl (List.append_assoc ..) rfl fun k => by cases k <;> rfl
  | chat => exact hrequest [.incrChatReq] rfl rfl rfl rfl fun k => by cases k <;> rfl
  | heartbeat sid req now =>
    by_cases hpos : req.lastRttMs > 0
    · refine hrequest [.incrHeartbeatReq, .recordHeartbeat req.lastRttMs] rfl rfl rfl ?_
        fun k => by cases k <;> rfl
      simp only [counted, if_pos hpos]
      rfl
    · refine hrequest [.incrHeartbeatReq] rfl rfl rfl ?_ fun k => by cases k <;> rfl
      simp only [counted, if_neg hpos]
      rfl
  | reconnectRefused | resume =>
    exact hrequest [.incrReconnectReq] rfl rfl rfl rfl fun k => by cases k <;> rfl
  | ranking => exact hrequest [.incrRankingReq] rfl rfl rfl rfl fun k => by cases k <;> rfl
  | unregistered =>
    exact hrequest [] rfl rfl (List.append_nil _).symm rfl fun k => by cases k <;> rfl

end Server

/-! ### The sizes of the managers -/

/-- None of the four managers has more than `n` entries. -/
structure Server.SizesLe (s : Server) (n : ℕ) : Prop where
  online : s.playerManager.onlineCount ≤ n
  conn : s.connectionManager.connectionCount ≤ n
  room : s.roomManager.roomCount ≤ n
  queue : s.matchQueue.size ≤ n

namespace Server.SizesLe

theorem mono {s : Server} {n n' : ℕ} (h : s.SizesLe n) (hle : n ≤ n') : s.SizesLe n' :=
  ⟨h.online.trans hle, h.conn.trans hle, h.room.trans hle, h.queue.trans hle⟩

theorem size_popped_le (s : Server) (p : PlayerId) :
    (s.core.popped p).2.size ≤ s.matchQueue.size + 1 :=
  (MatchQueue.size_tryPop_two_le _).trans (s.matchQueue.size_join p).le

/-- Removing players creates no room. -/
theorem roomCount_removePlayers {ps : List PlayerId} {m m' : RoomManager}
    (h : ps.foldlM RoomManager.removePlayer m = .ok m') : m'.roomCount ≤ m.roomCount := by
  induction ps generalizing m with
  | nil =>
    obtain rfl := Except.ok.inj h
    exact le_rfl
  | cons p ps ih =>
    rw [List.foldlM_cons] at h
    cases hm : m.removePlayer p with
    | error f =>
      rw [hm] at h
      cases h
    | ok m₁ =>
      rw [hm] at h
      exact (ih h).trans (RoomManager.roomCount_removePlayer_le hm)

/-- **What an event adds**: at most one entry to each manager, and none if it is no request. -/
theorem step {s s' : Server} {n : ℕ} {e : Event} (h : s.SizesLe n) (hs : server.step s e s') :
    s'.SizesLe (n + if e.isRequest then 1 else 0) := by
  have hcase := handled_of_step hs.2
  generalize s.act e = a at hcase
  clear hs
  cases hcase with
  | accept | closed | release => exact ⟨h.online, h.conn, h.room, h.queue⟩
  | loginRefused | matchRefused | chat | heartbeat | reconnectRefused | ranking | unregistered =>
    exact mono ⟨h.online, h.conn, h.room, h.queue⟩ n.le_succ
  | login =>
    exact ⟨(Table.size_insert_le ..).trans (Nat.succ_le_succ h.online),
      (Finset.card_insert_le ..).trans (Nat.succ_le_succ h.conn), h.room.trans n.le_succ,
      h.queue.trans n.le_succ⟩
  | wait =>
    refine ⟨h.online.trans n.le_succ, h.conn.trans n.le_succ, h.room.trans n.le_succ, ?_⟩
    exact (size_popped_le s _).trans (Nat.succ_le_succ h.queue)
  | room =>
    refine ⟨h.online.trans n.le_succ, h.conn.trans n.le_succ,
      (RoomManager.roomCount_insertRoom_le ..).trans (Nat.succ_le_succ h.room), ?_⟩
    exact (size_popped_le s _).trans (Nat.succ_le_succ h.queue)
  | resume _ hrm =>
    exact ⟨(Table.size_insert_le ..).trans (Nat.succ_le_succ h.online),
      (Finset.card_insert_le ..).trans (Nat.succ_le_succ h.conn),
      ((RoomManager.roomCount_mark_le hrm).trans h.room).trans n.le_succ,
      h.queue.trans n.le_succ⟩
  | close _ hrm =>
    exact ⟨(Table.size_erase_le ..).trans h.online, (Finset.card_erase_le ..).trans h.conn,
      (RoomManager.roomCount_mark_le hrm).trans h.room, (MatchQueue.size_leave_le ..).trans h.queue⟩
  | sweep _ hrm => exact ⟨h.online, h.conn, (roomCount_removePlayers hrm).trans h.room, h.queue⟩

end Server.SizesLe

/-! ### Runs with reports -/

/-- What the loop does: an event of the server, or a report. -/
inductive Activity
  | handle (e : Event)
  | report

namespace Activity

def isRequest : Activity → Bool
  | handle e => e.isRequest
  | report => false

def asks (k : RequestKind) : Activity → Bool
  | handle e => e.asks k
  | report => false

def isReport : Activity → Bool
  | handle _ => false
  | report => true

end Activity

/-- The server with its reporter.  A report in which a rate overflows has no next state. -/
def reporting : Transition.System Server Activity where
  init := {}
  step s a s' := match a with
    | .handle e => server.step s e s'
    | .report => ∃ r, MetricsReporter.reportOnce s = some (r, s')

/-- The state after an activity, if it is possible. -/
def Server.perform (s : Server) : Activity → Option Server
  | .handle e => if s.enables e then (s.step e).toOption else none
  | .report => (MetricsReporter.reportOnce s).map Prod.snd

theorem Server.step_of_perform {s s' : Server} {a : Activity} (h : s.perform a = some s') :
    reporting.step s a s' := by
  cases a with
  | handle e =>
    simp only [perform] at h
    split_ifs at h with hen
    cases hs : s.step e with
    | error c =>
      rw [hs] at h
      cases h
    | ok s₁ =>
      rw [hs] at h
      obtain rfl := Option.some.inj h
      exact ⟨enabled_of_enables hen, hs⟩
  | report =>
    obtain ⟨⟨r, s₁⟩, hr, rfl⟩ := Option.map_eq_some_iff.1 h
    exact ⟨r, hr⟩

/-- A history of the server and its reports, latest first. -/
abbrev ReportHistory := List (Server × Activity)

namespace ReportHistory

/-- The requests handled. -/
def requests (tr : ReportHistory) : ℕ := tr.countP fun x => x.2.isRequest

/-- The requests that one handler got. -/
def asked (tr : ReportHistory) (k : RequestKind) : ℕ := tr.countP fun x => x.2.asks k

/-- The requests handled since the last report. -/
def requestsSince (tr : ReportHistory) : ℕ :=
  (tr.takeWhile fun x => !x.2.isReport).countP fun x => x.2.isRequest

/-- The number of messages that had been sent at the last report. -/
def sentBefore (tr : ReportHistory) : ℕ :=
  (tr.find? fun x => x.2.isReport).elim 0 fun x => x.1.sent.length

theorem requests_handle (s : Server) (e : Event) (tr : ReportHistory) :
    requests ((s, .handle e) :: tr) = tr.requests + if e.isRequest then 1 else 0 :=
  List.countP_cons ..

theorem asked_handle (s : Server) (e : Event) (tr : ReportHistory) (k : RequestKind) :
    asked ((s, .handle e) :: tr) k = tr.asked k + if e.asks k then 1 else 0 :=
  List.countP_cons ..

theorem asked_le_requests (tr : ReportHistory) (k : RequestKind) : tr.asked k ≤ tr.requests :=
  List.countP_mono_left fun ⟨_, a⟩ _ h => match a with
    | .handle _ => Event.isRequest_of_asks h
    | .report => Bool.noConfusion h

theorem requestsSince_handle (s : Server) (e : Event) (tr : ReportHistory) :
    requestsSince ((s, .handle e) :: tr) = tr.requestsSince + if e.isRequest then 1 else 0 :=
  List.countP_cons ..

end ReportHistory

namespace MetricsReporter

/-- The statistics with the gauges set. -/
def gauged (s : Server) : ServerMetrics :=
  (((s.metrics.setConnectionCount (toInt s.connectionManager.connectionCount)).setMatchQueueSize
    (toInt s.matchQueue.size)).setOnlinePlayers (toInt s.playerManager.onlineCount)).setRoomCount
      (toInt s.roomManager.roomCount)

/-- The gauges are what they were set to. -/
theorem set_gauges (m : ServerMetrics) (conn queue online room : ℤ) :
    ((((m.setConnectionCount conn).setMatchQueueSize queue).setOnlinePlayers online).setRoomCount
        room).onlinePlayers = online ∧
      ((((m.setConnectionCount conn).setMatchQueueSize queue).setOnlinePlayers online).setRoomCount
        room).connectionCount = conn ∧
      ((((m.setConnectionCount conn).setMatchQueueSize queue).setOnlinePlayers online).setRoomCount
        room).roomCount = room ∧
      ((((m.setConnectionCount conn).setMatchQueueSize queue).setOnlinePlayers online).setRoomCount
        room).matchQueueSize = queue := ⟨rfl, rfl, rfl, rfl⟩

theorem gauged_sizes (s : Server) :
    (gauged s).onlinePlayers = toInt s.playerManager.onlineCount ∧
      (gauged s).connectionCount = toInt s.connectionManager.connectionCount ∧
      (gauged s).roomCount = toInt s.roomManager.roomCount ∧
      (gauged s).matchQueueSize = toInt s.matchQueue.size := set_gauges s.metrics ..

/-- The calls that set the gauges. -/
theorem counting_gauged (s : Server) : ∃ cs, s.metrics.Counting cs (gauged s) ∧
    (∀ d : Direction, cs.count d.incrPacket = 0) ∧ ∀ k : RequestKind, cs.count k.incr = 0 := by
  refine ⟨[.setConnectionCount (toInt s.connectionManager.connectionCount),
    .setMatchQueueSize (toInt s.matchQueue.size),
    .setOnlinePlayers (toInt s.playerManager.onlineCount),
    .setRoomCount (toInt s.roomManager.roomCount)], ⟨rfl, fun d => ?_⟩, fun d => ?_, fun k => ?_⟩
  · cases d <;> simp [Direction.calcQps]
  · cases d <;> simp [Direction.incrPacket]
  · cases k <;> rfl

/-- **What is printed**, once both rates are known. -/
theorem reportOnce_eq_some_iff {s s' : Server} {r : Report} :
    reportOnce s = some (r, s') ↔ ∃ recvQps m₁ sendQps m₂,
      (gauged s).calcRecvQps = some (recvQps, m₁) ∧ m₁.calcSendQps = some (sendQps, m₂) ∧
      s' = { s with metrics := m₂ } ∧ r = {
        online := m₂.onlinePlayers
        conn := m₂.connectionCount
        room := m₂.roomCount
        matchQueue := m₂.matchQueueSize
        recvQps := recvQps
        sendQps := sendQps
        totalRecv := m₂.totalRecvPackets
        totalSend := m₂.totalSendPackets
        login := m₂.loginReqCount
        «match» := m₂.matchReqCount
        chat := m₂.chatReqCount
        heartbeat := m₂.heartbeatReqCount
        ranking := m₂.rankingReqCount
        reconnect := m₂.reconnectReqCount
        avgHeartbeatRtt := m₂.avgHeartbeatRttMs } := by
  constructor
  · intro h
    obtain ⟨⟨recvQps, m₁⟩, hrecv, h⟩ := Option.bind_eq_some_iff.1 h
    obtain ⟨⟨sendQps, m₂⟩, hsend, h⟩ := Option.bind_eq_some_iff.1 h
    obtain ⟨rfl, rfl⟩ := Prod.mk.inj (Option.some.inj h)
    exact ⟨recvQps, m₁, sendQps, m₂, hrecv, hsend, rfl, rfl⟩
  · rintro ⟨recvQps, m₁, sendQps, m₂, hrecv, hsend, rfl, rfl⟩
    exact Option.bind_eq_some_iff.2 ⟨_, hrecv, Option.bind_eq_some_iff.2 ⟨_, hsend, rfl⟩⟩

end MetricsReporter

/-- The calls are those of the run: each request is a packet received and one request of its kind,
each message a packet sent, and each report asks for both rates. -/
structure CallsOf (calls : CallHistory) (tr : ReportHistory) (s : Server) : Prop where
  run : packetCalls.Run calls s.metrics
  received : calls.packets .recv = tr.requests
  sent : calls.packets .send = s.sent.length
  receivedSince : calls.since .recv = tr.requestsSince
  sentSince : calls.since .send + tr.sentBefore = s.sent.length
  asked : ∀ k, calls.asked k = tr.asked k

namespace CallsOf

variable {calls : CallHistory} {tr : ReportHistory} {s s' : Server}

theorem handle (h : CallsOf calls tr s) {e : Event} (hs : server.step s e s') :
    ∃ calls', CallsOf calls' ((s, .handle e) :: tr) s' := by
  obtain ⟨cs, hcs, hrecv, hsent, hasks⟩ := Server.counting_of_step hs
  obtain ⟨calls', hrun, hcalls, hasked⟩ := hcs.run h.run
  obtain ⟨hpackets, hsince⟩ := hcalls .recv
  obtain ⟨hpackets', hsince'⟩ := hcalls .send
  refine ⟨calls', hrun, ?_, ?_, ?_, ?_, fun k => ?_⟩
  · rw [hpackets, h.received, ReportHistory.requests_handle, ← hrecv]
    rfl
  · rw [hpackets', h.sent, hsent]
    rfl
  · rw [hsince, h.receivedSince, ReportHistory.requestsSince_handle, ← hrecv]
    rfl
  · have hbefore : ReportHistory.sentBefore ((s, .handle e) :: tr) = tr.sentBefore := rfl
    have hadd : Direction.send.incrPacket = .incrSendPacket := rfl
    rw [hsince', hbefore, hadd, hsent, ← h.sentSince]
    omega
  · rw [hasked, h.asked, hasks, ReportHistory.asked_handle]

/-- The calls of a report up to where it asks for the rates. -/
theorem gauged (h : CallsOf calls tr s) : ∃ calls' : CallHistory,
    packetCalls.Run calls' (MetricsReporter.gauged s) ∧
    (∀ d : Direction, calls'.packets d = calls.packets d ∧ calls'.since d = calls.since d) ∧
    ∀ k : RequestKind, calls'.asked k = calls.asked k := by
  obtain ⟨cs, hcs, hcount, hzero⟩ := MetricsReporter.counting_gauged s
  obtain ⟨calls', hrun, hcalls, hasked⟩ := hcs.run h.run
  refine ⟨calls', hrun, fun d => ?_, fun k => by rw [hasked, hzero, Nat.add_zero]⟩
  obtain ⟨hpackets, hsince⟩ := hcalls d
  rw [hpackets, hsince, hcount]
  exact ⟨rfl, rfl⟩

theorem report (h : CallsOf calls tr s) {r : Report}
    (hs : MetricsReporter.reportOnce s = some (r, s')) :
    ∃ calls', CallsOf calls' ((s, .report) :: tr) s' := by
  obtain ⟨recvQps, m₁, sendQps, m₂, hrecv, hsend, rfl, -⟩ :=
    MetricsReporter.reportOnce_eq_some_iff.1 hs
  obtain ⟨calls', hrun, hcalls, hasked⟩ := h.gauged
  obtain ⟨hpackets, -⟩ := hcalls .recv
  obtain ⟨hpackets', -⟩ := hcalls .send
  have hrun₁ := hrun.cons (ServerMetrics.call_of_qps (d := .recv) hrecv)
  have hrun₂ := hrun₁.cons (ServerMetrics.call_of_qps (d := .send) hsend)
  refine ⟨_, hrun₂, ?_, ?_, ?_, ?_, fun k => ?_⟩
  · exact hpackets.trans h.received
  · exact hpackets'.trans h.sent
  · rfl
  · exact Nat.zero_add _
  · rw [CallHistory.asked_calcQps, CallHistory.asked_calcQps, hasked, h.asked]
    rfl

end CallsOf

/-- **A run of the server with its reports** makes a run of the calls on its statistics. -/
theorem calls_of_run {tr : ReportHistory} {s : Server} (h : reporting.Run tr s) :
    ∃ calls, CallsOf calls tr s := by
  induction h with
  | nil => exact ⟨[], .nil, rfl, rfl, rfl, rfl, fun k => rfl⟩
  | @cons tr s s' a _ hs ih =>
    obtain ⟨calls, hcalls⟩ := ih
    cases a with
    | handle e => exact hcalls.handle hs
    | report =>
      obtain ⟨r, hr⟩ := hs
      exact hcalls.report hr

/-- **The managers grow with the requests**: none has more entries than requests were handled. -/
theorem sizesLe_of_run {tr : ReportHistory} {s : Server} (h : reporting.Run tr s) :
    s.SizesLe tr.requests := by
  induction h with
  | nil => exact ⟨le_rfl, le_rfl, le_rfl, le_rfl⟩
  | @cons tr s s' a _ hs ih =>
    cases a with
    | handle e =>
      rw [ReportHistory.requests_handle]
      exact ih.step hs
    | report =>
      obtain ⟨r, hr⟩ := hs
      obtain ⟨_, _, _, _, -, -, rfl, -⟩ := MetricsReporter.reportOnce_eq_some_iff.1 hr
      exact ⟨ih.online, ih.conn, ih.room, ih.queue⟩

/-- What is printed for the requests of a handler. -/
def Report.requests (r : Report) : RequestKind → ℤ
  | .login => r.login
  | .match => r.match
  | .chat => r.chat
  | .heartbeat => r.heartbeat
  | .ranking => r.ranking
  | .reconnect => r.reconnect

/-- **What a report says**, while fewer than `2 ^ 31` requests were handled and messages sent: how
many there were since the last report and in all, how many requests each handler got, and the sizes
of the managers. -/
theorem report_exact {tr : ReportHistory} {s : Server} (h : reporting.Run tr s)
    (hrecv : tr.requests < 2 ^ 31) (hsend : s.sent.length < 2 ^ 31) :
    ∃ r s', MetricsReporter.reportOnce s = some (r, s') ∧
      r.recvQps = tr.requestsSince ∧ r.sendQps = s.sent.length - tr.sentBefore ∧
      r.totalRecv = tr.requests ∧ r.totalSend = s.sent.length ∧
      (∀ k, r.requests k = tr.asked k) ∧
      r.online = s.playerManager.onlineCount ∧ r.conn = s.connectionManager.connectionCount ∧
      r.room = s.roomManager.roomCount ∧ r.matchQueue = s.matchQueue.size := by
  obtain ⟨calls, hcalls⟩ := calls_of_run h
  obtain ⟨honlineLe, hconnLe, hroomLe, hqueueLe⟩ := sizesLe_of_run h
  have hsize {n : ℕ} (hn : n ≤ tr.requests) : toInt n = n := toInt_of_lt (by omega) (by omega)
  obtain ⟨calls', hrun, hsame, hasked⟩ := hcalls.gauged
  have hpackets : ∀ d, calls'.packets d < 2 ^ 31
    | .recv => by rwa [(hsame .recv).1, hcalls.received]
    | .send => by rwa [(hsame .send).1, hcalls.sent]
  obtain ⟨m₁, m₂, hqps₁, hqps₂, htotal, hcount⟩ := ServerMetrics.exists_calcQps hrun hpackets
  have hrequests (k : RequestKind) : m₂.requestCount k = tr.asked k := by
    have hle := tr.asked_le_requests k
    rw [hcount, hasked, hcalls.asked, toInt_of_lt (by omega) (by omega)]
  obtain ⟨honline, hconn, hroom, hqueue⟩ := MetricsReporter.gauged_sizes s
  obtain ⟨honline', hconn', hroom', hqueue'⟩ := ServerMetrics.gauges_of_calcQps hqps₁ hqps₂
  refine ⟨_, _, MetricsReporter.reportOnce_eq_some_iff.2
    ⟨_, m₁, _, m₂, hqps₁, hqps₂, rfl, rfl⟩, ?_, ?_, ?_, ?_, fun k => ?_, ?_, ?_, ?_, ?_⟩
  · rw [(hsame .recv).2, hcalls.receivedSince]
  · have hsince : calls'.since .send + tr.sentBefore = s.sent.length := by
      rw [(hsame .send).2, hcalls.sentSince]
    rw [← hsince, Nat.cast_add, add_sub_cancel_right]
  · exact (htotal .recv).trans (congrArg Nat.cast ((hsame .recv).1.trans hcalls.received))
  · exact (htotal .send).trans (congrArg Nat.cast ((hsame .send).1.trans hcalls.sent))
  · exact (by cases k <;> rfl : _ = m₂.requestCount k).trans (hrequests k)
  · rw [← hsize honlineLe]
    exact honline'.trans honline
  · rw [← hsize hconnLe]
    exact hconn'.trans hconn
  · rw [← hsize hroomLe]
    exact hroom'.trans hroom
  · rw [← hsize hqueueLe]
    exact hqueue'.trans hqueue

/-- Two players are matched and reported, and then one of them chats. -/
theorem report_exact_pair : ∃ tr s r s', reporting.Run tr s ∧
    MetricsReporter.reportOnce s = some (r, s') ∧ r.recvQps = 1 ∧ r.sendQps = 2 ∧
    r.totalRecv = 5 ∧ r.requests .login = 2 ∧ r.requests .chat = 1 ∧ r.room = 1 := by
  obtain ⟨tr, s, h, hrecv, hsend, hsince, hbefore, hlogin, hchat, hroom⟩ :=
    Transition.System.exists_run_of_replay (M := reporting)
      (fun s a s' (h : s.perform a = some s') => Server.step_of_perform h)
      (Q := fun (tr : ReportHistory) s => tr.requests = 5 ∧ s.sent.length = 8 ∧ tr.requestsSince = 1 ∧
        tr.sentBefore = 6 ∧ tr.asked .login = 2 ∧ tr.asked .chat = 1 ∧ s.roomManager.roomCount = 1)
      (Server.pairUp.map .handle ++
        [.report, .handle (.request 0 (.chat { roomId := 1, text := [0x68] }) {})])
      (by decide +kernel)
  obtain ⟨r, s', hr, hrecvQps, hsendQps, htotal, -, hrequests, -, -, hrooms, -⟩ :=
    report_exact h (by rw [hrecv]; decide) (by rw [hsend]; decide)
  refine ⟨tr, s, r, s', h, hr, ?_, ?_, ?_, ?_, ?_, ?_⟩
  · rw [hrecvQps, hsince, Nat.cast_one]
  · rw [hsendQps, hsend, hbefore]
    rfl
  · rw [htotal, hrecv]
    rfl
  · rw [hrequests, hlogin]
    rfl
  · rw [hrequests, hchat, Nat.cast_one]
  · rw [hrooms, hroom]
    rfl

end GameServer
