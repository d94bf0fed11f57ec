/-
# Self-delimiting frames in a byte stream

A receiver that cuts messages out of a stream sees the stream in arbitrary
pieces: it appends each piece to a buffer, cuts off complete frames from the
front while there are any, and keeps the rest.  `Framing` is what makes this
independent of the pieces: `decode` takes a frame off the front of a buffer, the
frame it took is the raw form of the message it returns (`sound`), and that raw
form is recognised as such whatever follows it (`complete`).

`drain` is the cutting loop and `feed` the receiver.  `drain_unique` says that
a stream splits in only one way into frames and a rest without a frame;
`feed_eq_drain` that the receiver finds this splitting however the stream
arrives, and `length_drain` that the loop runs at most once per `minLen` bytes.
`drain_fst_eq_iff` is about a sender with a format of its own.
-/

import Mathlib.Data.List.Basic
import Mathlib.Tactic

/-- Frames that are recognised by their own bytes alone. -/
structure Framing (β μ : Type*) where
  /-- Take one frame off the front of a buffer, if a complete one is there. -/
  decode : List β → Option (μ × List β)
  /-- The bytes of a message's frame. -/
  raw : μ → List β
  minLen : ℕ
  minLen_pos : 0 < minLen
  minLen_le : ∀ m, minLen ≤ (raw m).length
  sound : ∀ {b m r}, decode b = some (m, r) → b = raw m ++ r
  complete : ∀ {b m r}, decode b = some (m, r) → ∀ c, decode (raw m ++ c) = some (m, c)

namespace Framing

variable {β μ : Type*} (F : Framing β μ)

theorem length_lt {b r : List β} {m : μ} (h : F.decode b = some (m, r)) :
    r.length + F.minLen ≤ b.length := by
  rw [F.sound h, List.length_append]
  have := F.minLen_le m
  omega

/-- A frame at the front of a buffer is the same frame when more bytes follow. -/
theorem stable {b r : List β} {m : μ} (h : F.decode b = some (m, r)) (c : List β) :
    F.decode (b ++ c) = some (m, r ++ c) := by
  rw [F.sound h, List.append_assoc]
  exact F.complete h (r ++ c)

/-- A message is `Framed` when its raw form is a frame. -/
def Framed (m : μ) : Prop := ∀ c, F.decode (F.raw m ++ c) = some (m, c)

/-- The cutting loop: the messages of the complete frames at the front of a
buffer, in order, and what is left of it. -/
def drain (b : List β) : List μ × List β :=
  match _h : F.decode b with
  | none => ([], b)
  | some (m, r) => (m :: (drain r).1, (drain r).2)
termination_by b.length
decreasing_by
  all_goals
    have hlt := F.length_lt _h
    have hpos := F.minLen_pos
    omega

theorem drain_of_none {b : List β} (h : F.decode b = none) : F.drain b = ([], b) := by
  rw [drain]
  split
  · rfl
  · rename_i h'
    rw [h] at h'
    exact absurd h' (by simp)

theorem drain_of_some {b r : List β} {m : μ} (h : F.decode b = some (m, r)) :
    F.drain b = (m :: (F.drain r).1, (F.drain r).2) := by
  rw [drain]
  split
  · rename_i h'
    rw [h] at h'
    exact absurd h' (by simp)
  · rename_i h'
    rw [h] at h'
    obtain ⟨rfl, rfl⟩ := Prod.mk.inj (Option.some.inj h')
    rfl

/-- Induction along the cutting loop. -/
theorem drain_induction {P : List β → Prop} (hnone : ∀ b, F.decode b = none → P b)
    (hsome : ∀ b m r, F.decode b = some (m, r) → P r → P b) (b : List β) : P b := by
  induction hn : b.length using Nat.strongRecOn generalizing b with
  | _ n ih =>
    subst hn
    cases h : F.decode b with
    | none => exact hnone b h
    | some p =>
      have hlt := F.length_lt h
      have hpos := F.minLen_pos
      exact hsome b p.1 p.2 h (ih _ (by omega) p.2 rfl)

/-- **Nothing is lost and nothing invented:** the frames cut off and the rest
are the buffer. -/
theorem drain_sound (b : List β) :
    ((F.drain b).1.map F.raw).flatten ++ (F.drain b).2 = b := by
  induction b using F.drain_induction with
  | hnone b h => rw [F.drain_of_none h]; rfl
  | hsome b m r h ih =>
    rw [F.drain_of_some h]
    simp only [List.map_cons, List.flatten_cons, List.append_assoc, ih]
    exact (F.sound h).symm

/-- The loop stops where no complete frame is left. -/
theorem drain_stuck (b : List β) : F.decode (F.drain b).2 = none := by
  induction b using F.drain_induction with
  | hnone b h => rw [F.drain_of_none h]; exact h
  | hsome b m r h ih => rw [F.drain_of_some h]; exact ih

/-- What the loop cuts off are frames. -/
theorem drain_framed (b : List β) : ∀ m ∈ (F.drain b).1, F.Framed m := by
  induction b using F.drain_induction with
  | hnone b h =>
    rw [F.drain_of_none h]
    exact fun m hm => absurd hm List.not_mem_nil
  | hsome b m r h ih =>
    rw [F.drain_of_some h]
    exact List.forall_mem_cons.2 ⟨F.complete h, ih⟩

/-- Frames at the front of a buffer are cut off, and then the loop goes on with what follows
them. -/
theorem drain_frames_append {ms : List μ} (hms : ∀ m ∈ ms, F.Framed m) (r : List β) :
    F.drain ((ms.map F.raw).flatten ++ r) = (ms ++ (F.drain r).1, (F.drain r).2) := by
  induction ms with
  | nil => rfl
  | cons m ms ih =>
    rw [List.forall_mem_cons] at hms
    have h : F.decode ((List.map F.raw (m :: ms)).flatten ++ r) =
        some (m, (ms.map F.raw).flatten ++ r) := by
      rw [List.map_cons, List.flatten_cons, List.append_assoc]
      exact hms.1 _
    rw [F.drain_of_some h, ih hms.2, List.cons_append]

/-- **The splitting is unique:** frames followed by a rest without one are cut
into exactly those frames and that rest. -/
theorem drain_unique {ms : List μ} {r : List β} (hms : ∀ m ∈ ms, F.Framed m)
    (hr : F.decode r = none) : F.drain ((ms.map F.raw).flatten ++ r) = (ms, r) := by
  rw [F.drain_frames_append hms, F.drain_of_none hr, List.append_nil]

/-- There is no frame in nothing. -/
theorem decode_nil : F.decode [] = none := by
  cases h : F.decode [] with
  | none => rfl
  | some p =>
    have hlt := F.length_lt h
    have hpos := F.minLen_pos
    rw [List.length_nil] at hlt
    omega

/-- **Who speaks the same format.**  A sender whose packets are as long as the frames is
understood exactly when they are the frames. -/
theorem drain_fst_eq_iff {ms : List μ} (hms : ∀ m ∈ ms, F.Framed m) {packet : μ → List β}
    (hlen : ∀ m ∈ ms, (packet m).length = (F.raw m).length) :
    (F.drain (ms.map packet).flatten).1 = ms ↔ ∀ m ∈ ms, packet m = F.raw m := by
  constructor
  · intro h
    have hsound := F.drain_sound (ms.map packet).flatten
    rw [h] at hsound
    generalize (F.drain (ms.map packet).flatten).2 = r at hsound
    clear h hms
    -- The frames found and the packets are the same bytes, cut at the same places.
    induction ms with
    | nil => exact fun m hm => absurd hm List.not_mem_nil
    | cons m ms ih =>
      rw [List.forall_mem_cons] at hlen ⊢
      rw [List.map_cons, List.map_cons, List.flatten_cons, List.flatten_cons,
        List.append_assoc] at hsound
      obtain ⟨hm, hrest⟩ := List.append_inj hsound hlen.1.symm
      exact ⟨hm.symm, ih hlen.2 hrest⟩
  · intro h
    have hunique := F.drain_unique hms F.decode_nil
    rw [List.append_nil, ← List.map_congr_left h] at hunique
    rw [hunique]

/-- Bytes that arrive later are cut together with what the loop had left. -/
theorem drain_append (b c : List β) :
    F.drain (b ++ c) =
      ((F.drain b).1 ++ (F.drain ((F.drain b).2 ++ c)).1, (F.drain ((F.drain b).2 ++ c)).2) := by
  induction b using F.drain_induction with
  | hnone b h => rw [F.drain_of_none h]; rfl
  | hsome b m r h ih => rw [F.drain_of_some (F.stable h c), ih, F.drain_of_some h]; rfl

/-- The frames of the beginning of a stream are the first of its frames. -/
theorem drain_prefix {b c : List β} (h : b <+: c) : (F.drain b).1 <+: (F.drain c).1 := by
  obtain ⟨rest, rfl⟩ := h
  rw [F.drain_append]
  exact List.prefix_append ..

/-- Each frame takes at least `minLen` bytes, which bounds the loop. -/
theorem length_drain (b : List β) :
    F.minLen * (F.drain b).1.length + (F.drain b).2.length ≤ b.length := by
  induction b using F.drain_induction with
  | hnone b h => rw [F.drain_of_none h]; simp
  | hsome b m r h ih =>
    have := F.length_lt h
    simp only [F.drain_of_some h, List.length_cons, Nat.mul_succ]
    omega

/-- The receiver: append each piece to what was left, and cut. -/
def feed (b : List β) : List (List β) → List μ × List β
  | [] => ([], b)
  | c :: cs => ((F.drain (b ++ c)).1 ++ (feed (F.drain (b ++ c)).2 cs).1,
      (feed (F.drain (b ++ c)).2 cs).2)

/-- **The pieces do not matter:** a receiver with nothing to cut finds in the
pieces what the loop finds in their concatenation. -/
theorem feed_eq_drain {b : List β} (hb : F.decode b = none) (cs : List (List β)) :
    F.feed b cs = F.drain (b ++ cs.flatten) := by
  induction cs generalizing b with
  | nil => rw [feed, List.flatten_nil, List.append_nil, F.drain_of_none hb]
  | cons c cs ih =>
    rw [feed, ih (F.drain_stuck _), List.flatten_cons, ← List.append_assoc, F.drain_append (b ++ c)]

/-- A receiver that starts with nothing finds what there is in the stream. -/
theorem feed_nil (cs : List (List β)) : F.feed [] cs = F.drain cs.flatten := by
  rw [F.feed_eq_drain F.decode_nil, List.nil_append]

/-- The messages of the first pieces are the first of the messages. -/
theorem feed_take_prefix (b : List β) (cs : List (List β)) (k : ℕ) :
    (F.feed b (cs.take k)).1 <+: (F.feed b cs).1 := by
  induction cs generalizing b k with
  | nil => rw [List.take_nil]
  | cons c cs ih =>
    cases k with
    | zero => exact List.nil_prefix
    | succ k => exact List.prefix_append_right_inj _ |>.2 (ih _ k)

end Framing
