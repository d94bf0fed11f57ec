/-
# Server metrics

`src/util/ServerMetrics.cpp`.  The packet and request counters are
`std::atomic<int>`, whose increment wraps around, and the heartbeat totals are
`std::atomic<int64_t>`, as are the values that `calc_recv_qps` and `calc_send_qps` keep of the
packet counters.  The difference these return is one of two `int`s.
-/

import GameServer.Proto.Message

namespace GameServer

/-- `a - b` on `int`.  There is none where it overflows, which C++ leaves undefined. -/
def subInt (a b : ℤ) : Option ℤ := if -2 ^ 31 ≤ a - b ∧ a - b < 2 ^ 31 then some (a - b) else none

theorem subInt_eq_some_iff {a b n : ℤ} :
    subInt a b = some n ↔ n = a - b ∧ -2 ^ 31 ≤ n ∧ n < 2 ^ 31 := by
  unfold subInt
  split_ifs with h
  · rw [Option.some_inj]
    exact ⟨fun e => e ▸ ⟨rfl, h⟩, fun e => e.1.symm⟩
  · exact ⟨fun e => (by cases e), fun e => absurd (e.1 ▸ e.2) h⟩

/-- `class ServerMetrics`. -/
structure ServerMetrics where
  onlinePlayers : ℤ := 0
  connectionCount : ℤ := 0
  roomCount : ℤ := 0
  matchQueueSize : ℤ := 0
  totalRecvPackets : ℤ := 0
  totalSendPackets : ℤ := 0
  loginReqCount : ℤ := 0
  matchReqCount : ℤ := 0
  chatReqCount : ℤ := 0
  heartbeatReqCount : ℤ := 0
  rankingReqCount : ℤ := 0
  reconnectReqCount : ℤ := 0
  totalHeartbeatRttMs : ℤ := 0
  heartbeatRttCount : ℤ := 0
  lastRecvPackets : ℤ := 0
  lastSendPackets : ℤ := 0
  deriving DecidableEq

namespace ServerMetrics

def setOnlinePlayers (m : ServerMetrics) (count : ℤ) : ServerMetrics :=
  { m with onlinePlayers := count }

def setConnectionCount (m : ServerMetrics) (count : ℤ) : ServerMetrics :=
  { m with connectionCount := count }

def setRoomCount (m : ServerMetrics) (count : ℤ) : ServerMetrics :=
  { m with roomCount := count }

def setMatchQueueSize (m : ServerMetrics) (count : ℤ) : ServerMetrics :=
  { m with matchQueueSize := count }

def incrRecvPacket (m : ServerMetrics) : ServerMetrics :=
  { m with totalRecvPackets := toInt (m.totalRecvPackets + 1) }

def incrSendPacket (m : ServerMetrics) : ServerMetrics :=
  { m with totalSendPackets := toInt (m.totalSendPackets + 1) }

/-- What counting a message keeps, counting several keeps. -/
theorem iterate_incrSendPacket_frame {α : Type*} {f : ServerMetrics → α}
    (hf : ∀ m, f m.incrSendPacket = f m) (n : ℕ) (m : ServerMetrics) :
    f (incrSendPacket^[n] m) = f m := by
  induction n generalizing m with
  | zero => rfl
  | succ n ih => exact (ih m.incrSendPacket).trans (hf m)

def incrLoginReq (m : ServerMetrics) : ServerMetrics :=
  { m with loginReqCount := toInt (m.loginReqCount + 1) }

def incrMatchReq (m : ServerMetrics) : ServerMetrics :=
  { m with matchReqCount := toInt (m.matchReqCount + 1) }

def incrChatReq (m : ServerMetrics) : ServerMetrics :=
  { m with chatReqCount := toInt (m.chatReqCount + 1) }

def incrHeartbeatReq (m : ServerMetrics) : ServerMetrics :=
  { m with heartbeatReqCount := toInt (m.heartbeatReqCount + 1) }

def incrRankingReq (m : ServerMetrics) : ServerMetrics :=
  { m with rankingReqCount := toInt (m.rankingReqCount + 1) }

def incrReconnectReq (m : ServerMetrics) : ServerMetrics :=
  { m with reconnectReqCount := toInt (m.reconnectReqCount + 1) }

def recordHeartbeat (m : ServerMetrics) (rttMs : ℤ) : ServerMetrics :=
  if rttMs < 0 then m
  else { m with
    heartbeatRttCount := toInt64 (m.heartbeatRttCount + 1)
    totalHeartbeatRttMs := toInt64 (m.totalHeartbeatRttMs + rttMs) }

/-- `avg_heartbeat_rtt_ms`, before the quotient is rounded to a `double`. -/
def avgHeartbeatRttMs (m : ServerMetrics) : ℚ :=
  if m.heartbeatRttCount ≤ 0 then 0 else m.totalHeartbeatRttMs / m.heartbeatRttCount

/-- What `calc_recv_qps` and `calc_send_qps` return, for the counter and the value last kept of
it, which is an `int64_t` and is converted to `int`. -/
def calcQps (current last : ℤ) : Option ℤ := subInt current (toInt last)

def calcRecvQps (m : ServerMetrics) : Option (ℤ × ServerMetrics) :=
  (calcQps m.totalRecvPackets m.lastRecvPackets).map fun qps =>
    (qps, { m with lastRecvPackets := m.totalRecvPackets })

def calcSendQps (m : ServerMetrics) : Option (ℤ × ServerMetrics) :=
  (calcQps m.totalSendPackets m.lastSendPackets).map fun qps =>
    (qps, { m with lastSendPackets := m.totalSendPackets })

end ServerMetrics
end GameServer
