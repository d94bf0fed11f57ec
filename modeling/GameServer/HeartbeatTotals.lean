/-
# The heartbeat statistics

`handle_heartbeat` records the round trip time a client reports when it is positive, whatever it
is, by adding it to a 64-bit total, and `avg_heartbeat_rtt_ms` divides the total by the number of
values.  `rtt_step` says that nothing else touches the two totals, so that after any run they
are the number and the sum of the values recorded in it, each modulo `2 ^ 64` (`totals_of_run`).
They are the number and the sum themselves, and the average lies among the values, exactly while
the sum is below `2 ^ 63` (`heartbeat_totals_iff`); no bound on the single values follows from
the code, and two of them are enough to leave this range.
-/

import GameServer.Records
import GameServer.Refusals

namespace GameServer

namespace ServerMetrics

/-- The heartbeat totals say of the values recorded what they are reported for. -/
structure Meaningful (m : ServerMetrics) (rtts : List ℤ) : Prop where
  count : m.heartbeatRttCount = rtts.length
  total : m.totalHeartbeatRttMs = rtts.sum
  average : 0 < m.heartbeatRttCount → ∃ lo hi, rtts.min? = some lo ∧ rtts.max? = some hi ∧
    (lo : ℚ) ≤ m.avgHeartbeatRttMs ∧ m.avgHeartbeatRttMs ≤ hi

/-- The totals of the values, as they wrap around. -/
structure Totals (m : ServerMetrics) (rtts : List ℤ) : Prop where
  count : m.heartbeatRttCount = toInt64 rtts.length
  total : m.totalHeartbeatRttMs = toInt64 rtts.sum

theorem Totals.recordHeartbeat {m : ServerMetrics} {rtts : List ℤ} (h : m.Totals rtts) {v : ℤ}
    (hv : 0 < v) : (m.recordHeartbeat v).Totals (v :: rtts) := by
  rw [ServerMetrics.recordHeartbeat, if_neg (not_lt.2 hv.le)]
  constructor
  · rw [h.count, toInt64_toInt64_add, List.length_cons, Nat.cast_succ]
  · rw [h.total, toInt64_toInt64_add, List.sum_cons, add_comm]

/-- There are no more positive values than their sum. -/
theorem length_le_sum {rtts : List ℤ} (hpos : ∀ v ∈ rtts, 0 < v) : (rtts.length : ℤ) ≤ rtts.sum := by
  have h := List.card_nsmul_le_sum rtts 1 fun v hv => hpos v hv
  rwa [nsmul_one] at h

/-- **An exact mean lies among its values.** -/
theorem mean_mem {rtts : List ℤ} {lo hi : ℤ} (hlo : rtts.min? = some lo) (hhi : rtts.max? = some hi) :
    (lo : ℚ) ≤ rtts.sum / rtts.length ∧ (rtts.sum : ℚ) / rtts.length ≤ hi := by
  obtain ⟨hmem, hmin⟩ := List.min?_eq_some_iff.1 hlo
  obtain ⟨-, hmax⟩ := List.max?_eq_some_iff.1 hhi
  have hlen : (0 : ℚ) < rtts.length := by exact_mod_cast List.length_pos_of_mem hmem
  have hsum_lo := List.card_nsmul_le_sum rtts lo hmin
  have hsum_hi := List.sum_le_card_nsmul rtts hi hmax
  rw [nsmul_eq_mul] at hsum_lo hsum_hi
  rw [le_div_iff₀ hlen, div_le_iff₀ hlen, mul_comm (lo : ℚ), mul_comm (hi : ℚ)]
  exact_mod_cast And.intro hsum_lo hsum_hi

/-- **The totals are meaningful** exactly when the sum of the values is an `int64_t`. -/
theorem Totals.meaningful_iff {m : ServerMetrics} {rtts : List ℤ} (h : m.Totals rtts)
    (hpos : ∀ v ∈ rtts, 0 < v) : m.Meaningful rtts ↔ rtts.sum < 2 ^ 63 := by
  have hlen := length_le_sum hpos
  constructor
  · intro hm
    have hwrap : toInt64 rtts.sum = rtts.sum := h.total.symm.trans hm.total
    have hlt : toInt64 rtts.sum < 2 ^ 63 := by
      have := Int.bmod_lt (x := rtts.sum) (m := 2 ^ 64) (by norm_num)
      unfold toInt64
      omega
    rwa [hwrap] at hlt
  · intro hsum
    have hcount : m.heartbeatRttCount = rtts.length := by
      rw [h.count, toInt64_of_lt (by omega) (by omega)]
    have htotal : m.totalHeartbeatRttMs = rtts.sum := by
      rw [h.total, toInt64_of_lt (by omega) hsum]
    refine ⟨hcount, htotal, fun hc => ?_⟩
    have hne : rtts ≠ [] := by
      rintro rfl
      rw [hcount] at hc
      exact absurd hc (by simp)
    obtain ⟨lo, hlo⟩ := Option.isSome_iff_exists.1 (List.isSome_min?_of_ne_nil hne)
    obtain ⟨hi, hhi⟩ := Option.isSome_iff_exists.1 (List.isSome_max?_of_ne_nil hne)
    have hmean := mean_mem hlo hhi
    refine ⟨lo, hi, hlo, hhi, ?_⟩
    rw [avgHeartbeatRttMs, if_neg (not_le.2 hc), hcount, htotal]
    exact_mod_cast hmean

/-- Counting packets and requests leaves the totals alone. -/
theorem Totals.congr {m m' : ServerMetrics} {rtts : List ℤ} (h : m.Totals rtts)
    (hcount : m'.heartbeatRttCount = m.heartbeatRttCount)
    (htotal : m'.totalHeartbeatRttMs = m.totalHeartbeatRttMs) : m'.Totals rtts :=
  ⟨hcount.trans h.count, htotal.trans h.total⟩

end ServerMetrics

/-- The value that a request has recorded. -/
def Event.recordedRtt : Event → Option ℤ
  | .request _ (.heartbeat req) _ => if req.lastRttMs > 0 then some req.lastRttMs else none
  | _ => none

/-- The positive `last_rtt_ms` values of the heartbeats of a run, latest first. -/
def History.rtts (tr : History) : List ℤ := tr.filterMap fun x => x.2.recordedRtt

theorem rtts_cons (s : Server) (e : Event) (tr : History) :
    History.rtts ((s, e) :: tr) = e.recordedRtt.toList ++ tr.rtts := by
  cases h : e.recordedRtt <;> simp [History.rtts, h]

theorem pos_of_mem_rtts {tr : History} {v : ℤ} (hv : v ∈ tr.rtts) : 0 < v := by
  obtain ⟨x, -, hx⟩ := List.mem_filterMap.1 hv
  unfold Event.recordedRtt at hx
  split at hx
  · split_ifs at hx with hpos
    exact Option.some.inj hx ▸ hpos
  · cases hx

namespace Server

/-- **The totals after a step**: a heartbeat with a positive value records it, and nothing else
touches them. -/
theorem rtt_step {s s' : Server} {e : Event} (hs : server.step s e s') {rtts : List ℤ}
    (h : s.metrics.Totals rtts) : s'.metrics.Totals (e.recordedRtt.toList ++ rtts) := by
  have hcase := handled_of_step hs.2
  generalize s.act e = a at hcase
  clear hs
  cases hcase with
  | heartbeat sid req now =>
    have hreq : s.metrics.incrRecvPacket.incrHeartbeatReq.Totals rtts := h.congr rfl rfl
    rw [Event.recordedRtt]
    by_cases hpos : req.lastRttMs > 0
    · simp only [if_pos hpos]
      exact (hreq.recordHeartbeat hpos).congr rfl rfl
    · simp only [if_neg hpos]
      exact hreq.congr rfl rfl
  | room | chat =>
    obtain ⟨htotal, hcount⟩ := ServerMetrics.rtt_iterate_incrSendPacket _ _
    exact h.congr hcount htotal
  | _ => exact h.congr rfl rfl

end Server

/-- **The totals of a run** are those of the values recorded in it. -/
theorem totals_of_run {tr : History} {s : Server} (h : server.Run tr s) :
    s.metrics.Totals tr.rtts := by
  induction h with
  | nil => exact ⟨rfl, rfl⟩
  | cons _ hs ih =>
    rw [rtts_cons]
    exact Server.rtt_step hs ih

/-- **When the heartbeat statistics are meaningful.**  After every run of the server, the count is
the number of positive `last_rtt_ms` values that were received and the total their sum, and the
average lies between the smallest and the largest, exactly when the sum of the values is below
`2 ^ 63`; and this is so in every state the run passes through exactly when it is at its end. -/
theorem heartbeat_totals_iff {tr : History} {s : Server} (h : server.Run tr s) :
    (s.metrics.Meaningful tr.rtts ↔ tr.rtts.sum < 2 ^ 63) ∧
      ((∀ x ∈ Transition.System.reached tr s, x.2.metrics.Meaningful (History.rtts x.1)) ↔
        tr.rtts.sum < 2 ^ 63) := by
  have hend {tr : History} {s : Server} (h : server.Run tr s) :=
    (totals_of_run h).meaningful_iff fun _ => pos_of_mem_rtts
  refine ⟨hend h, fun hall => (hend h).1 (hall _ (Transition.System.mem_reached tr s)),
    fun hsum x hx => ?_⟩
  obtain ⟨hsuf, hrun⟩ := h.of_mem_reached hx
  have hsub : (History.rtts x.1).Sublist tr.rtts := hsuf.sublist.filterMap _
  exact (hend hrun).2 (lt_of_le_of_lt
    (hsub.sum_le_sum fun v hv => (pos_of_mem_rtts hv).le) hsum)

/-- Three heartbeats, the second of which reports no value. -/
theorem heartbeat_totals_iff_two : ∃ s : Server,
    s.metrics.heartbeatRttCount = 2 ∧ s.metrics.totalHeartbeatRttMs = 8 := by
  obtain ⟨tr, s, h, hrtts⟩ := Server.exists_run (Q := fun tr _ => tr.rtts = [5, 3])
    [.accept 0 {}, .request 0 (.heartbeat { lastRttMs := 3 }) {},
      .request 0 (.heartbeat {}) {}, .request 0 (.heartbeat { lastRttMs := 5 }) {}]
    (by decide +kernel)
  obtain ⟨hcount, htotal, -⟩ := (heartbeat_totals_iff h).1.2 (by rw [hrtts]; decide)
  rw [hrtts] at hcount htotal
  exact ⟨s, hcount, htotal⟩

/-- **Two large values wrap the total around**: their sum is `2 ^ 63`, the total is negative, and
so is the average of two positive values. -/
theorem heartbeat_total_wraps : ∃ (tr : History) (s : Server), server.Run tr s ∧
    tr.rtts = [2 ^ 62, 2 ^ 62] ∧
    s.metrics.heartbeatRttCount = 2 ∧ s.metrics.totalHeartbeatRttMs = -2 ^ 63 ∧
    s.metrics.avgHeartbeatRttMs < 0 ∧ ¬ s.metrics.Meaningful tr.rtts := by
  obtain ⟨tr, s, h, hrtts, hcount, htotal⟩ := Server.exists_run
    (Q := fun tr s => tr.rtts = [2 ^ 62, 2 ^ 62] ∧ s.metrics.heartbeatRttCount = 2 ∧
      s.metrics.totalHeartbeatRttMs = -2 ^ 63)
    [.accept 0 {}, .request 0 (.heartbeat { lastRttMs := 2 ^ 62 }) {},
      .request 0 (.heartbeat { lastRttMs := 2 ^ 62 }) {}] (by decide +kernel)
  refine ⟨tr, s, h, hrtts, hcount, htotal, ?_, fun hm => ?_⟩
  · rw [ServerMetrics.avgHeartbeatRttMs, hcount, htotal]
    norm_num
  · have hsum := hm.total
    rw [htotal, hrtts] at hsum
    exact absurd hsum (by decide)

end GameServer
