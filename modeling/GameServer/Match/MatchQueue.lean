/-
# The match queue

`src/match/MatchQueue.cpp`: a deque of waiting player ids and the hash set of the
same ids.  `join` does not look whether the id is already waiting; its caller does, and
as long as it does the two agree (`Valid`).
-/

import GameServer.Player.PlayerManager

namespace GameServer

/-- `class MatchQueue`. -/
structure MatchQueue where
  queue : List PlayerId := []
  inQueue : Finset PlayerId := ∅
  deriving DecidableEq

namespace MatchQueue

def contains (q : MatchQueue) (playerId : PlayerId) : Bool := playerId ∈ q.inQueue

def join (q : MatchQueue) (playerId : PlayerId) : MatchQueue :=
  { queue := q.queue ++ [playerId], inQueue := insert playerId q.inQueue }

/-- The loop of `leave` erases the first occurrence. -/
def leave (q : MatchQueue) (playerId : PlayerId) : MatchQueue :=
  if playerId ∉ q.inQueue then q
  else { queue := q.queue.erase playerId, inQueue := q.inQueue.erase playerId }

def size (q : MatchQueue) : ℕ := q.queue.length

/-- The loop of `try_pop_matched_players`, popping `n` more players. -/
def pop : ℕ → MatchQueue → List PlayerId × MatchQueue
  | 0, q => ([], q)
  | n + 1, q =>
    match q.queue with
    | [] => ([], q)
    | playerId :: rest =>
      let r := pop n { queue := rest, inQueue := q.inQueue.erase playerId }
      (playerId :: r.1, r.2)

def tryPopMatchedPlayers (q : MatchQueue) (roomSize : ℕ) : List PlayerId × MatchQueue :=
  if q.size < roomSize then ([], q) else pop roomSize q

/-- The deque holds each waiting player once, the set holds the same players, and
every one of them passed the check that the id is positive. -/
structure Valid (q : MatchQueue) : Prop where
  nodup : q.queue.Nodup
  mem_inQueue : ∀ x, x ∈ q.inQueue ↔ x ∈ q.queue
  pos : ∀ x ∈ q.queue, 0 < x

theorem Valid.empty : ({} : MatchQueue).Valid where
  nodup := List.nodup_nil
  mem_inQueue x := by simp
  pos x hx := absurd hx List.not_mem_nil

theorem Valid.join {q : MatchQueue} (h : q.Valid) {p : PlayerId} (hp : 0 < p)
    (hq : p ∉ q.inQueue) : (q.join p).Valid where
  nodup := by
    rw [MatchQueue.join, ← List.concat_eq_append]
    exact h.nodup.concat fun hm => hq ((h.mem_inQueue p).2 hm)
  mem_inQueue x := by
    rw [MatchQueue.join, Finset.mem_insert, h.mem_inQueue, List.mem_append, List.mem_singleton,
      or_comm]
  pos x hx := by
    rcases List.mem_append.1 hx with hx | hx
    · exact h.pos x hx
    · exact List.mem_singleton.1 hx ▸ hp

/-- Leaving removes the player and nobody else. -/
theorem Valid.mem_leave {q : MatchQueue} (h : q.Valid) (p x : PlayerId) :
    x ∈ (q.leave p).queue ↔ x ≠ p ∧ x ∈ q.queue := by
  unfold leave
  split_ifs with hp
  · exact h.nodup.mem_erase_iff
  · refine ⟨fun hx => ⟨?_, hx⟩, And.right⟩
    rintro rfl
    exact hp ((h.mem_inQueue x).2 hx)

theorem Valid.leave {q : MatchQueue} (h : q.Valid) (p : PlayerId) : (q.leave p).Valid := by
  refine ⟨?_, fun x => ?_, fun x hx => h.pos x ((h.mem_leave p x).1 hx).2⟩
  · unfold MatchQueue.leave
    split_ifs
    · exact h.nodup.erase p
    · exact h.nodup
  · rw [h.mem_leave, ← h.mem_inQueue, MatchQueue.leave]
    split_ifs with hp
    · exact Finset.mem_erase
    · refine ⟨fun hx => ⟨?_, hx⟩, And.right⟩
      rintro rfl
      exact hp hx

/-- Popping two players takes the first two of the deque, if there are two. -/
theorem tryPop_two (q : MatchQueue) :
    (q.queue.length < 2 ∧ q.tryPopMatchedPlayers 2 = ([], q)) ∨
      ∃ x y rest, q.queue = x :: y :: rest ∧ q.tryPopMatchedPlayers 2 =
        ([x, y], { queue := rest, inQueue := (q.inQueue.erase x).erase y }) := by
  rcases q with ⟨_ | ⟨x, _ | ⟨y, rest⟩⟩, s⟩
  · exact .inl ⟨by simp, rfl⟩
  · exact .inl ⟨by simp, rfl⟩
  · exact .inr ⟨x, y, rest, rfl, rfl⟩

theorem size_join (q : MatchQueue) (p : PlayerId) : (q.join p).size = q.size + 1 := by
  rw [size, join, List.length_append, List.length_singleton, size]

theorem size_leave_le (q : MatchQueue) (p : PlayerId) : (q.leave p).size ≤ q.size := by
  unfold leave size
  split_ifs
  · exact List.length_erase_le
  · exact le_rfl

theorem size_tryPop_two_le (q : MatchQueue) : (q.tryPopMatchedPlayers 2).2.size ≤ q.size := by
  rcases q.tryPop_two with ⟨-, heq⟩ | ⟨x, y, rest, hq, heq⟩
  · rw [heq]
  · rw [heq, size, size, hq, List.length_cons]
    exact (Nat.le_succ _).trans (Nat.le_succ _)

/-- **What a pop takes and leaves.**  The players popped are distinct and were
waiting, and those still waiting are the others. -/
theorem Valid.pop {q : MatchQueue} (h : q.Valid) :
    (q.tryPopMatchedPlayers 2).1.Nodup ∧ (∀ x ∈ (q.tryPopMatchedPlayers 2).1, x ∈ q.queue) ∧
      (q.tryPopMatchedPlayers 2).2.Valid ∧
      ∀ x, x ∈ (q.tryPopMatchedPlayers 2).2.queue ↔
        x ∉ (q.tryPopMatchedPlayers 2).1 ∧ x ∈ q.queue := by
  rcases q.tryPop_two with ⟨-, heq⟩ | ⟨x, y, rest, hq, heq⟩
  · rw [heq]
    exact ⟨List.nodup_nil, fun x hx => absurd hx List.not_mem_nil, h,
      fun x => ⟨fun hx => ⟨List.not_mem_nil, hx⟩, And.right⟩⟩
  · rw [heq]
    have hnd := h.nodup
    rw [hq, List.nodup_cons, List.nodup_cons, List.mem_cons, not_or] at hnd
    obtain ⟨⟨hxy, hx⟩, hy, hrest⟩ := hnd
    have hmem : ∀ z, z ∈ rest ↔ z ∉ [x, y] ∧ z ∈ q.queue := fun z => by
      rw [hq]
      simp only [List.mem_cons, List.not_mem_nil, or_false, not_or]
      constructor
      · intro hz
        exact ⟨⟨fun e => hx (e ▸ hz), fun e => hy (e ▸ hz)⟩, .inr (.inr hz)⟩
      · rintro ⟨⟨hzx, hzy⟩, e | e | hz⟩
        · exact absurd e hzx
        · exact absurd e hzy
        · exact hz
    refine ⟨by simpa using hxy, fun z hz => ?_, ⟨hrest, fun z => ?_, fun z hz => ?_⟩, hmem⟩
    · rw [hq]
      simp only [List.mem_cons, List.not_mem_nil, or_false] at hz
      rcases hz with rfl | rfl
      · exact List.mem_cons_self ..
      · exact List.mem_cons_of_mem _ (List.mem_cons_self ..)
    · rw [hmem z, Finset.mem_erase, Finset.mem_erase, h.mem_inQueue]
      simp only [List.mem_cons, List.not_mem_nil, or_false, not_or]
      tauto
    · exact h.pos z ((hmem z).1 hz).2

end MatchQueue
end GameServer
