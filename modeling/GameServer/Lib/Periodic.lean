/-
# Periodic checks

Items are dated, and a check that comes from time to time drops those that have become too old.  A
timer says when the next check is due: a check sets it to its own time and a period.  `Fresh` is
the invariant, that no item was too old at the last check.  So wherever the timer is not later
than it should be by more than `late`, no item has become older than the limit, the period and
`late` together (`Fresh.lt`): a check that is due may come late, but the items it should have
dropped were young when the last one came.

An item may be renewed by beats that are on their way for some time.  `Spaced` is the invariant of
somebody who sends one whenever a timer is due: the beats, and with them the renewals, are no more
than a period and `late` apart, so the last renewal is never older than that and the time on the
way (`Spaced.le`).
-/

import Mathlib.Tactic

namespace Periodic

/-- A clock, a timer and dated items, with the age at which a check drops an item and the time from
one check to the next. -/
structure Collector (σ ι : Type*) where
  clock : σ → ℤ
  timer : σ → ℤ
  Dated : σ → ι → ℤ → Prop
  limit : ℤ
  period : ℤ
  limit_pos : 0 < limit

namespace Collector

variable {σ ι : Type*} (C : Collector σ ι)

/-- An event dates items by the time it comes at, or is a check. -/
inductive Step (s s' : σ) : Prop
  | event (clock_le : C.clock s ≤ C.clock s') (timer_eq : C.timer s' = C.timer s)
      (dated : ∀ i t, C.Dated s' i t → C.Dated s i t ∨ t = C.clock s')
  | check (timer_eq : C.timer s' = C.clock s' + C.period)
      (dated : ∀ i t, C.Dated s' i t → C.clock s' < t + C.limit)

/-- No item was too old at the last check. -/
structure Fresh (s : σ) : Prop where
  timer_le : C.timer s ≤ C.clock s + C.period
  dated : ∀ i t, C.Dated s i t → C.timer s < t + C.limit + C.period

variable {C} {s s' : σ}

theorem Fresh.step (h : C.Fresh s) (hs : C.Step s s') : C.Fresh s' := by
  have hpos := C.limit_pos
  have hle := h.timer_le
  cases hs with
  | event clock_le timer_eq dated =>
    refine ⟨by omega, fun i t ht => ?_⟩
    rcases dated i t ht with ht | rfl
    · rw [timer_eq]
      exact h.dated i t ht
    · omega
  | check timer_eq dated =>
    refine ⟨timer_eq.le, fun i t ht => ?_⟩
    have hlt := dated i t ht
    omega

/-- **No item is older than the limit and the time to the next check.** -/
theorem Fresh.lt (h : C.Fresh s) {i : ι} {t : ℤ} (ht : C.Dated s i t) {now late : ℤ}
    (hnow : now ≤ C.timer s + late) : now < t + C.limit + C.period + late := by
  have hlt := h.dated i t ht
  omega

end Collector

/-! ### Renewals -/

/-- Beats that are no more than `period` and `late` apart, with a timer that is due no more than
`period` after the last one. -/
structure Spaced (period late due : ℤ) (beats : List ℤ) : Prop where
  chain : beats.IsChain fun a b => b ≤ a + (period + late)
  timer : ∃ last ∈ beats.getLast?, due ≤ last + period

namespace Spaced

variable {period late due due' now : ℤ} {beats rest : List ℤ}

/-- The timer is set. -/
theorem due_le (h : Spaced period late due beats) (hle : ∀ t ∈ beats, t ≤ now) :
    due ≤ now + period := by
  obtain ⟨last, hlast, hdue⟩ := h.timer
  have hnow := hle last (List.mem_of_getLast? hlast)
  omega

theorem single (hdue : due ≤ now + period) : Spaced period late due [now] :=
  ⟨List.isChain_singleton _, now, rfl, hdue⟩

/-- Beats at a time at which the timer is due for no more than `late`. -/
theorem append (h : Spaced period late due beats) (hlate : 0 ≤ period + late)
    (hnow : now ≤ due + late) (hdue : due' ≤ now + period) {n : ℕ} (hn : n ≠ 0) :
    Spaced period late due' (beats ++ List.replicate n now) := by
  obtain ⟨last, hlast, htimer⟩ := h.timer
  have hnew := List.isChain_replicate_of_rel (r := fun a b => b ≤ a + (period + late)) n
    (show now ≤ now + (period + late) by omega)
  refine ⟨h.chain.append hnew fun a ha b hb => ?_, now, ?_, hdue⟩
  · obtain rfl := Option.some.inj (hlast.symm.trans ha)
    have hb' := List.eq_of_mem_replicate (List.mem_of_mem_head? hb)
    omega
  · rw [List.getLast?_append, List.getLast?_replicate, if_neg hn]
    rfl

/-- A beat arrives, and counts from now on for the time it arrives at. -/
theorem renew (h : Spaced period late due beats) (hlate : 0 ≤ period + late)
    (hle : ∀ t ∈ beats, t ≤ now) (hrest : rest <:+ beats) :
    Spaced period late due (now :: rest) := by
  refine ⟨(h.chain.suffix hrest).cons fun b hb => ?_, ?_⟩
  · have hb' := hle b (hrest.subset (List.mem_of_mem_head? hb))
    omega
  · cases rest with
    | nil => exact ⟨now, rfl, h.due_le hle⟩
    | cons b rest =>
      obtain ⟨before, rfl⟩ := hrest
      obtain ⟨last, hlast, htimer⟩ := h.timer
      rw [List.getLast?_append_cons] at hlast
      exact ⟨last, by rwa [List.getLast?_cons_cons], htimer⟩

/-- **The last renewal is not older** than a period, `late`, and the time beats are on their way. -/
theorem le {a delay : ℤ} (h : Spaced period late due (a :: rest)) (hdelay : 0 ≤ delay)
    (hnow : now ≤ due + late) (hon : ∀ t ∈ rest, now ≤ t + delay) :
    now ≤ a + (period + late) + delay := by
  cases rest with
  | nil =>
    obtain ⟨last, hlast, htimer⟩ := h.timer
    obtain rfl : a = last := Option.some.inj hlast
    omega
  | cons b rest =>
    have hb := (List.isChain_cons_cons.1 h.chain).1
    have hnow := hon b (List.mem_cons_self ..)
    omega

end Spaced
end Periodic
