/-
# The packet counters

`ServerMetrics` counts the packets that were received and sent, and `calc_recv_qps` and
`calc_send_qps` say how many there were since they were last called, from the value they kept of
the counter then.  `total_recv_packets` and the rates are `int64_t`, as the kept value is, but the
counters are `std::atomic<int>`, and so is the arithmetic on them.

`packetCalls` is the class as a state machine whose steps are its calls.  After any number of them
a counter is the number of packets as an `int`, and the kept value is what the counter was
(`counts_of_run`).  So a rate is right exactly when fewer than `2 ^ 31` packets came since the
last one and the counter did not wrap around meanwhile (`qps_iff`), and everything is right
exactly while there are fewer than `2 ^ 31` packets in all (`packet_counters_iff`).
-/

import GameServer.Lib.Transition
import GameServer.Util.ServerMetrics

namespace GameServer

/-- The two ways a packet goes. -/
inductive Direction
  | recv
  | send
  deriving DecidableEq

/-- A call of a method of `ServerMetrics` that changes it. -/
inductive MetricsCall
  | setOnlinePlayers (count : ℤ)
  | setConnectionCount (count : ℤ)
  | setRoomCount (count : ℤ)
  | setMatchQueueSize (count : ℤ)
  | incrRecvPacket
  | incrSendPacket
  | incrLoginReq
  | incrMatchReq
  | incrChatReq
  | incrHeartbeatReq
  | incrRankingReq
  | incrReconnectReq
  | recordHeartbeat (rttMs : ℤ)
  | calcRecvQps
  | calcSendQps
  deriving DecidableEq

namespace Direction

/-- The call that counts a packet. -/
def incrPacket : Direction → MetricsCall
  | recv => .incrRecvPacket
  | send => .incrSendPacket

/-- The call that asks for the packets since it was last made. -/
def calcQps : Direction → MetricsCall
  | recv => .calcRecvQps
  | send => .calcSendQps

theorem incrPacket_ne_calcQps (d d' : Direction) : d.incrPacket ≠ d'.calcQps := by
  cases d <;> cases d' <;> exact MetricsCall.noConfusion

end Direction

namespace ServerMetrics

def totalPackets (m : ServerMetrics) : Direction → ℤ
  | .recv => m.totalRecvPackets
  | .send => m.totalSendPackets

def lastPackets (m : ServerMetrics) : Direction → ℤ
  | .recv => m.lastRecvPackets
  | .send => m.lastSendPackets

def qps (m : ServerMetrics) : Direction → Option (ℤ × ServerMetrics)
  | .recv => m.calcRecvQps
  | .send => m.calcSendQps

/-- The state after a call, if nothing overflows in it. -/
def call (m : ServerMetrics) : MetricsCall → Option ServerMetrics
  | .setOnlinePlayers count => some (m.setOnlinePlayers count)
  | .setConnectionCount count => some (m.setConnectionCount count)
  | .setRoomCount count => some (m.setRoomCount count)
  | .setMatchQueueSize count => some (m.setMatchQueueSize count)
  | .incrRecvPacket => some m.incrRecvPacket
  | .incrSendPacket => some m.incrSendPacket
  | .incrLoginReq => some m.incrLoginReq
  | .incrMatchReq => some m.incrMatchReq
  | .incrChatReq => some m.incrChatReq
  | .incrHeartbeatReq => some m.incrHeartbeatReq
  | .incrRankingReq => some m.incrRankingReq
  | .incrReconnectReq => some m.incrReconnectReq
  | .recordHeartbeat rttMs => some (m.recordHeartbeat rttMs)
  | .calcRecvQps => m.calcRecvQps.map Prod.snd
  | .calcSendQps => m.calcSendQps.map Prod.snd

end ServerMetrics

/-- The class as a transition system.  A call in which a difference overflows has no next state. -/
def packetCalls : Transition.System ServerMetrics MetricsCall where
  init := {}
  step m c m' := m.call c = some m'

/-- The calls that were made, latest first, each with the state it was made in. -/
abbrev CallHistory := List (ServerMetrics × MetricsCall)

namespace CallHistory

/-- The packets counted. -/
def packets (tr : CallHistory) (d : Direction) : ℕ := (tr.map Prod.snd).count d.incrPacket

/-- The packets counted since the last call of `calc_recv_qps`, or `calc_send_qps`. -/
def since (tr : CallHistory) (d : Direction) : ℕ :=
  ((tr.map Prod.snd).takeWhile fun c => c ≠ d.calcQps).count d.incrPacket

/-- What `calc_recv_qps`, or `calc_send_qps`, has returned. -/
def deltas (tr : CallHistory) (d : Direction) : List ℤ :=
  tr.filterMap fun x => if x.2 = d.calcQps then (x.1.qps d).map Prod.fst else none

theorem since_le_packets (tr : CallHistory) (d : Direction) : tr.since d ≤ tr.packets d :=
  (List.takeWhile_sublist _).count_le _

theorem packets_cons (m : ServerMetrics) (c : MetricsCall) (tr : CallHistory) (d : Direction) :
    packets ((m, c) :: tr) d = tr.packets d + if c = d.incrPacket then 1 else 0 := by
  rw [packets, List.map_cons, List.count_cons]
  simp only [packets, beq_iff_eq]

theorem since_cons (m : ServerMetrics) (c : MetricsCall) (tr : CallHistory) (d : Direction) :
    since ((m, c) :: tr) d =
      if c = d.calcQps then 0 else tr.since d + if c = d.incrPacket then 1 else 0 := by
  rw [since, List.map_cons, List.takeWhile_cons]
  by_cases hcalc : c = d.calcQps
  · simp [hcalc]
  · simp [hcalc, since, List.count_cons]

/-- Asking for a rate is no packet. -/
theorem packets_calcQps (m : ServerMetrics) (d' : Direction) (tr : CallHistory) (d : Direction) :
    packets ((m, d'.calcQps) :: tr) d = tr.packets d := by
  rw [packets_cons, if_neg (d.incrPacket_ne_calcQps d').symm, add_zero]

theorem deltas_cons (m : ServerMetrics) (c : MetricsCall) (tr : CallHistory) (d : Direction) :
    deltas ((m, c) :: tr) d =
      (if c = d.calcQps then (m.qps d).map Prod.fst else none).toList ++ tr.deltas d := by
  cases h : if c = d.calcQps then (m.qps d).map Prod.fst else none <;> simp [deltas, h]

end CallHistory

namespace ServerMetrics

/-- **What a call does** to a counter and to the value kept of it. -/
theorem call_packets {m m' : ServerMetrics} {c : MetricsCall} (h : m.call c = some m')
    (d : Direction) :
    m'.totalPackets d = (if c = d.incrPacket then toInt (m.totalPackets d + 1)
      else m.totalPackets d) ∧
    m'.lastPackets d = if c = d.calcQps then m.totalPackets d else m.lastPackets d := by
  cases c with
  | calcRecvQps | calcSendQps =>
    obtain ⟨⟨qps, m₁⟩, hcalc, rfl⟩ := Option.map_eq_some_iff.1 h
    obtain ⟨_, -, heq⟩ := Option.map_eq_some_iff.1 hcalc
    obtain ⟨rfl, rfl⟩ := Prod.mk.inj heq
    cases d <;> exact ⟨rfl, rfl⟩
  | recordHeartbeat rttMs =>
    obtain rfl := Option.some.inj h
    rcases lt_or_ge rttMs 0 with hneg | hneg
    · rw [recordHeartbeat, if_pos hneg]
      cases d <;> exact ⟨rfl, rfl⟩
    · rw [recordHeartbeat, if_neg (not_lt.2 hneg)]
      cases d <;> exact ⟨rfl, rfl⟩
  | _ =>
    obtain rfl := Option.some.inj h
    cases d <;> exact ⟨rfl, rfl⟩

/-- **What `calc_recv_qps`, or `calc_send_qps`, returns**: the difference, if it is an `int`. -/
theorem qps_eq_some_iff {m : ServerMetrics} {d : Direction} {n : ℤ} :
    (∃ m', m.qps d = some (n, m')) ↔
      n = m.totalPackets d - toInt (m.lastPackets d) ∧ -2 ^ 31 ≤ n ∧ n < 2 ^ 31 := by
  rw [← subInt_eq_some_iff]
  cases d <;> simp [qps, calcRecvQps, calcSendQps, calcQps, totalPackets, lastPackets]

theorem qps_of_call {m m' : ServerMetrics} {d : Direction} (h : m.call d.calcQps = some m') :
    m.qps d = some (m.totalPackets d - toInt (m.lastPackets d), m') := by
  have hqps : (m.qps d).map Prod.snd = some m' := by
    cases d <;> exact h
  obtain ⟨⟨n, m₁⟩, hn, rfl⟩ := Option.map_eq_some_iff.1 hqps
  rw [hn, (qps_eq_some_iff.1 ⟨m₁, hn⟩).1]

theorem call_of_qps {m m' : ServerMetrics} {d : Direction} {n : ℤ} (h : m.qps d = some (n, m')) :
    m.call d.calcQps = some m' := by
  have hqps : (m.qps d).map Prod.snd = some m' := by rw [h, Option.map_some]
  cases d <;> exact hqps

/-- The counters as they are after the calls: the number of packets as an `int`, what that was
when the rate was last asked for, and the rates that were returned, which add up to it. -/
structure Counts (m : ServerMetrics) (tr : CallHistory) (d : Direction) : Prop where
  total : m.totalPackets d = toInt (tr.packets d)
  last : m.lastPackets d = toInt (tr.packets d - tr.since d)
  deltas : (tr.deltas d).sum = m.lastPackets d

theorem Counts.call {m m' : ServerMetrics} {tr : CallHistory} {c : MetricsCall} {d : Direction}
    (h : m.Counts tr d) (hc : m.call c = some m') : m'.Counts ((m, c) :: tr) d := by
  obtain ⟨htotal, hlast⟩ := call_packets hc d
  by_cases hcalc : c = d.calcQps
  · subst hcalc
    rw [if_neg (d.incrPacket_ne_calcQps d).symm] at htotal
    rw [if_pos rfl] at hlast
    refine ⟨?_, ?_, ?_⟩
    · rw [htotal, h.total, CallHistory.packets_calcQps]
    · rw [hlast, h.total, CallHistory.packets_calcQps, CallHistory.since_cons, if_pos rfl,
        Nat.cast_zero, sub_zero]
    · have hkept : toInt (m.lastPackets d) = m.lastPackets d := by rw [h.last, toInt_toInt]
      rw [CallHistory.deltas_cons, if_pos rfl, qps_of_call hc, hlast]
      simp only [Option.map_some, Option.toList_some, List.singleton_append, List.sum_cons, h.deltas,
        hkept, sub_add_cancel]
  · rw [if_neg hcalc] at hlast
    refine ⟨?_, ?_, ?_⟩
    · rw [htotal, h.total, CallHistory.packets_cons, toInt_toInt_add]
      split_ifs
      · rw [Nat.cast_add, Nat.cast_one]
      · rw [add_zero]
    · rw [hlast, h.last, CallHistory.packets_cons, CallHistory.since_cons, if_neg hcalc]
      push_cast
      rw [add_sub_add_right_eq_sub]
    · rw [CallHistory.deltas_cons, if_neg hcalc, Option.toList_none, List.nil_append, h.deltas, hlast]

/-- What the counters are reported for: `total_recv_packets` is the number of packets, the next
`calc_recv_qps` returns how many there were since the last one, and what was returned so far and
these make up the total. -/
structure Exact (m : ServerMetrics) (tr : CallHistory) (d : Direction) : Prop where
  total : m.totalPackets d = tr.packets d
  qps : ∃ m', m.qps d = some ((tr.since d : ℤ), m')
  deltas : (tr.deltas d).sum + tr.since d = m.totalPackets d

section

variable {m : ServerMetrics} {tr : CallHistory} {d : Direction}

/-- **When a rate is exact**: when there are fewer than `2 ^ 31` packets since the last one, and
the counter has not wrapped around meanwhile. -/
theorem Counts.qps_iff (h : m.Counts tr d) :
    (∃ m', m.qps d = some ((tr.since d : ℤ), m')) ↔ tr.since d < 2 ^ 31 ∧
      (tr.packets d - tr.since d + 2 ^ 31) / 2 ^ 32 = (tr.packets d + 2 ^ 31) / 2 ^ 32 := by
  have hle := tr.since_le_packets d
  rw [qps_eq_some_iff, h.total, h.last, toInt_toInt, toInt, toInt, Int.bmod_def, Int.bmod_def]
  omega

/-- **When everything is exact**: below `2 ^ 31` packets. -/
theorem Counts.exact_iff (h : m.Counts tr d) : m.Exact tr d ↔ tr.packets d < 2 ^ 31 := by
  have hle := tr.since_le_packets d
  constructor
  · intro hexact
    have hwrap : toInt (tr.packets d) = tr.packets d := h.total.symm.trans hexact.total
    have hlt := (toInt_mem (tr.packets d)).2
    omega
  · intro hlt
    have htotal : m.totalPackets d = tr.packets d := by
      rw [h.total, toInt_of_lt (by omega) (by omega)]
    refine ⟨htotal, h.qps_iff.2 ⟨by omega, by omega⟩, ?_⟩
    rw [h.deltas, h.last, htotal, toInt_of_lt (by omega) (by omega), sub_add_cancel]

/-- A call can be made where everything is exact. -/
theorem exists_call (h : ∀ d, m.Exact tr d) (c : MetricsCall) : ∃ m', m.call c = some m' := by
  cases c with
  | calcRecvQps =>
    obtain ⟨m', hqps⟩ := (h .recv).qps
    exact ⟨m', Option.map_eq_some_iff.2 ⟨_, hqps, rfl⟩⟩
  | calcSendQps =>
    obtain ⟨m', hqps⟩ := (h .send).qps
    exact ⟨m', Option.map_eq_some_iff.2 ⟨_, hqps, rfl⟩⟩
  | _ => exact ⟨_, rfl⟩

end

/-- The calls one after the other, on a new object, as long as nothing overflows. -/
def makeCalls (cs : List MetricsCall) : Option (CallHistory × ServerMetrics) :=
  Transition.System.replay call [] {} cs

end ServerMetrics

/-- **The counters after any calls.** -/
theorem counts_of_run {tr : CallHistory} {m : ServerMetrics} (h : packetCalls.Run tr m)
    (d : Direction) : m.Counts tr d := by
  induction h with
  | nil => cases d <;> exact ⟨rfl, rfl, rfl⟩
  | cons _ hc ih => exact ih.call hc

namespace ServerMetrics

theorem run_of_makeCalls {cs : List MetricsCall} {tr : CallHistory} {m : ServerMetrics}
    (h : makeCalls cs = some (tr, m)) : packetCalls.Run tr m :=
  Transition.System.Run.nil.replay (M := packetCalls) (fun _ _ _ hc => hc) h

theorem packets_of_makeCalls {cs : List MetricsCall} {tr : CallHistory} {m : ServerMetrics}
    (h : makeCalls cs = some (tr, m)) (d : Direction) : tr.packets d = cs.count d.incrPacket := by
  rw [CallHistory.packets, Transition.System.map_snd_replay h, List.map_nil, List.append_nil,
    List.count_reverse]

/-- **No call overflows** while there are fewer than `2 ^ 31` packets each way. -/
theorem exists_replay {tr : CallHistory} {m : ServerMetrics} (h : packetCalls.Run tr m)
    {cs : List MetricsCall} (hcs : ∀ d, tr.packets d + cs.count d.incrPacket < 2 ^ 31) :
    ∃ tr' m', Transition.System.replay call tr m cs = some (tr', m') := by
  induction cs generalizing tr m with
  | nil => exact ⟨tr, m, rfl⟩
  | cons c cs ih =>
    have hexact d : m.Exact tr d :=
      (counts_of_run h d).exact_iff.2 ((Nat.le_add_right ..).trans_lt (hcs d))
    obtain ⟨m₁, hc⟩ := exists_call hexact c
    obtain ⟨tr', m', hrest⟩ := ih (h.cons hc) fun d => by
      have := hcs d
      rw [List.count_cons] at this
      rw [CallHistory.packets_cons]
      simp only [beq_iff_eq] at this
      omega
    exact ⟨tr', m', by rw [Transition.System.replay, hc, Option.bind_some, hrest]⟩

end ServerMetrics

/-- **When packet counters and rates are exact.**  However the methods of `ServerMetrics` are
called, no difference overflows, and after every call the totals, the rates and the sums of the
rates are those of the packets, exactly when fewer than `2 ^ 31` packets are counted each way; and
if nothing overflows, they are so of one way exactly when fewer than `2 ^ 31` are counted that
way. -/
theorem packet_counters_iff (cs : List MetricsCall) :
    ((∃ tr m, ServerMetrics.makeCalls cs = some (tr, m) ∧
        ∀ x ∈ Transition.System.reached tr m, ∀ d, x.2.Exact x.1 d) ↔
      ∀ d : Direction, cs.count d.incrPacket < 2 ^ 31) ∧
    ∀ tr m, ServerMetrics.makeCalls cs = some (tr, m) → ∀ d : Direction,
      ((∀ x ∈ Transition.System.reached tr m, x.2.Exact x.1 d) ↔
        cs.count d.incrPacket < 2 ^ 31) := by
  have hone {tr : CallHistory} {m : ServerMetrics} (h : ServerMetrics.makeCalls cs = some (tr, m))
      (d : Direction) : (∀ x ∈ Transition.System.reached tr m, x.2.Exact x.1 d) ↔
        cs.count d.incrPacket < 2 ^ 31 := by
    have hrun := ServerMetrics.run_of_makeCalls h
    rw [← ServerMetrics.packets_of_makeCalls h d]
    constructor
    · exact fun hall => (counts_of_run hrun d).exact_iff.1
        (hall _ (Transition.System.mem_reached tr m))
    · intro hlt x hx
      obtain ⟨hsuf, hrun'⟩ := hrun.of_mem_reached hx
      have hle : CallHistory.packets x.1 d ≤ tr.packets d := (hsuf.sublist.map _).count_le _
      exact (counts_of_run hrun' d).exact_iff.2 (hle.trans_lt hlt)
  refine ⟨⟨fun ⟨tr, m, h, hall⟩ d => (hone h d).1 fun x hx => hall x hx d, fun hlt => ?_⟩,
    fun tr m h d => hone h d⟩
  obtain ⟨tr, m, h⟩ := ServerMetrics.exists_replay .nil fun d => (Nat.zero_add _).trans_lt (hlt d)
  exact ⟨tr, m, h, fun x hx d => (hone h d).2 (hlt d) x hx⟩

/-- **A counter wraps around.**  The rate is asked for after `2 ^ 31 - 1` packets, and there is one
packet more: the total is negative, and the next rate, which is one packet, overflows. -/
theorem packet_counter_wraps : ∃ tr m,
    ServerMetrics.makeCalls (List.replicate (2 ^ 31 - 1) .incrRecvPacket ++
      [.calcRecvQps, .incrRecvPacket]) = some (tr, m) ∧
    CallHistory.packets tr .recv = 2 ^ 31 ∧ m.totalRecvPackets = -2 ^ 31 ∧
    CallHistory.since tr .recv = 1 ∧ m.calcRecvQps = none ∧ ¬ m.Exact tr .recv := by
  generalize hn : 2 ^ 31 - 1 = n
  have hcount (d : Direction) : (List.replicate n MetricsCall.incrRecvPacket ++
      [MetricsCall.calcRecvQps]).count d.incrPacket = if d = .recv then n else 0 := by
    rw [List.count_append, List.count_replicate]
    cases d <;> rfl
  obtain ⟨tr, m, h⟩ : ∃ tr m, ServerMetrics.makeCalls (List.replicate n .incrRecvPacket ++
      [.calcRecvQps]) = some (tr, m) := by
    refine ServerMetrics.exists_replay .nil fun d => ?_
    rw [hcount, show CallHistory.packets [] d = 0 from rfl]
    split_ifs <;> omega
  -- The rate was asked for last.
  have hsince : CallHistory.since tr .recv = 0 := by
    rw [CallHistory.since, Transition.System.map_snd_replay h, List.reverse_append]
    rfl
  have hpackets : CallHistory.packets tr .recv = n := by
    rw [ServerMetrics.packets_of_makeCalls h, hcount, if_pos rfl]
  have hnext : ServerMetrics.makeCalls (List.replicate n .incrRecvPacket ++
      [.calcRecvQps, .incrRecvPacket]) = some ((m, .incrRecvPacket) :: tr, m.incrRecvPacket) := by
    rw [← List.singleton_append, ← List.append_assoc]
    exact Transition.System.replay_append h _
  have hpackets' : CallHistory.packets ((m, .incrRecvPacket) :: tr) .recv = 2 ^ 31 := by
    have hincr : MetricsCall.incrRecvPacket = Direction.recv.incrPacket := rfl
    rw [CallHistory.packets_cons, if_pos hincr, hpackets]
    omega
  have hsince' : CallHistory.since ((m, .incrRecvPacket) :: tr) .recv = 1 := by
    rw [CallHistory.since_cons, hsince]
    rfl
  have hcounts := counts_of_run (ServerMetrics.run_of_makeCalls hnext) .recv
  have htotal : m.incrRecvPacket.totalRecvPackets = -2 ^ 31 := by
    refine hcounts.total.trans ?_
    rw [hpackets']
    decide
  refine ⟨_, _, hnext, hpackets', htotal, hsince', ?_, fun hexact => ?_⟩
  · rw [Option.eq_none_iff_forall_ne_some]
    rintro ⟨qps, m'⟩ hqps
    obtain ⟨rfl, hge, -⟩ := ServerMetrics.qps_eq_some_iff (d := .recv) |>.1 ⟨m', hqps⟩
    rw [hcounts.last, hpackets', hsince'] at hge
    rw [show m.incrRecvPacket.totalPackets .recv = -2 ^ 31 from htotal] at hge
    exact absurd hge (by decide)
  · have := hcounts.exact_iff.1 hexact
    omega

end GameServer
