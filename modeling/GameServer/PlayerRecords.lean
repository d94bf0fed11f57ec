/-
# The records and what they are copies of

A player's record has an `online` flag and a `room_id`, which `PlayerManager` and
`RoomManager` also know (`Server.RecordsCurrent`).  The managers change what they know in
five places, and the records follow in two: a login stores `online` and no room, and
`create_room` stores the room.  A close, a reconnect and a reconnect timeout change the
managers and leave the record; `mark_online` and `mark_offline` of the repository have no
caller.  So the records agree as long as there is nothing to follow (`Server.KeepsRecords`),
and this is exact (`records_current_iff`).
-/

import GameServer.Records

namespace GameServer

/-! ### What a record copies -/

namespace Server

/-- The id was given to a client by a login. -/
def Issued (s : Server) (p : PlayerId) : Prop := p ∈ s.issued.map fun x => x.2.1

/-- `online` and `room_id` of the record, if there is one. -/
def recorded (s : Server) (p : PlayerId) : Option (Bool × RoomId) :=
  (s.playerStateRepository.loadPlayerState p).map fun st => (st.online, st.roomId)

/-- The record of every issued player says what the managers say. -/
def RecordsCurrent (s : Server) : Prop :=
  ∀ p, s.Issued p →
    s.recorded p = some (s.playerManager.isOnline p, s.roomManager.getRoomIdByPlayer p)

/-- What the act changes is in the record, or it changes nothing. -/
def KeepsRecords (s : Server) : Act → Prop
  /- The new record has no room. -/
  | .login _ => s.roomManager.getRoomIdByPlayer s.nextPlayerId = -1
  /- A player with a room keeps it in `player_room_map_`, and the record gets the new one. -/
  | .room _ ps => ∀ p ∈ ps, s.Issued p →
    (s.roomManager.playerRoomMap.lookup p).getD s.roomManager.nextRoomId = s.roomManager.nextRoomId
  | .resume _ p _ => s.Issued p → s.playerManager.isOnline p = true
  | .close sid _ => s.Issued (s.session sid).playerId →
    s.playerManager.isOnline (s.session sid).playerId = false
  | .sweep ps _ => ∀ p ∈ ps, s.Issued p → s.roomManager.getRoomIdByPlayer p = -1
  | _ => True

instance (s : Server) (p : PlayerId) : Decidable (s.Issued p) :=
  inferInstanceAs (Decidable (p ∈ _))

instance (s : Server) (a : Act) : Decidable (s.KeepsRecords a) :=
  match a with
  | .login _ => inferInstanceAs (Decidable (_ = _))
  | .room _ ps => inferInstanceAs (Decidable (∀ p ∈ ps, s.Issued p → _ = _))
  | .resume _ p _ => inferInstanceAs (Decidable (s.Issued p → _ = _))
  | .close sid _ => inferInstanceAs (Decidable (s.Issued (s.session sid).playerId → _ = _))
  | .sweep ps _ => inferInstanceAs (Decidable (∀ p ∈ ps, s.Issued p → _ = _))
  | .idle | .accept _ | .wait _ | .release _ => inferInstanceAs (Decidable True)

end Server

/-! ### What a step makes of both -/

theorem PlayerManager.isOnline_addPlayer (m : PlayerManager) (p q : PlayerId) (sid : SessionId) :
    (m.addPlayer p sid).isOnline q = if q = p then true else m.isOnline q := by
  simp only [isOnline, addPlayer, Finmap.mem_insert]
  split_ifs with hq <;> simp [hq]

theorem PlayerManager.isOnline_removePlayer (m : PlayerManager) (p q : PlayerId) :
    (m.removePlayer p).isOnline q = if q = p then false else m.isOnline q := by
  simp only [isOnline, removePlayer, Finmap.mem_erase]
  split_ifs with hq <;> simp [hq]

/-- `is_online(q)` after the act. -/
def Core.onlineAfter (c : Core) (q : PlayerId) : Act → Bool
  | .login _ => if q = c.nextPlayerId then true else c.playerManager.isOnline q
  | .resume _ p _ => if q = p then true else c.playerManager.isOnline q
  | .close sid _ =>
    if q = ((c.sessions.lookup sid).getD {}).playerId then false else c.playerManager.isOnline q
  | _ => c.playerManager.isOnline q

/-- `get_room_id_by_player(q)` after the act. -/
def Core.roomIdAfter (c : Core) (q : PlayerId) : Act → RoomId
  | .room _ ps =>
    if q ∈ ps then (c.roomManager.playerRoomMap.lookup q).getD c.roomManager.nextRoomId
    else c.roomManager.getRoomIdByPlayer q
  | .sweep ps _ => if q ∈ ps then -1 else c.roomManager.getRoomIdByPlayer q
  | _ => c.roomManager.getRoomIdByPlayer q

theorem CoreStep.isOnline_eq {c c' : Core} {a : Act} (h : CoreStep c a c') (q : PlayerId) :
    c'.playerManager.isOnline q = c.onlineAfter q a := by
  cases h with
  | login _ | resume _ _ _ => exact PlayerManager.isOnline_addPlayer ..
  | close hses _ _ _ =>
    rw [Core.onlineAfter, hses, Option.getD_some]
    exact PlayerManager.isOnline_removePlayer ..
  | sweep _ _ hfold =>
    rw [Core.sweep_frame hfold]
    rfl
  | idle | accept _ | wait _ _ _ | room _ _ _ _ | release _ _ _ => rfl

theorem CoreStep.getRoomIdByPlayer_eq {c c' : Core} {a : Act} (h : CoreStep c a c')
    (q : PlayerId) : c'.roomManager.getRoomIdByPlayer q = c.roomIdAfter q a := by
  unfold RoomManager.getRoomIdByPlayer
  cases h with
  | room _ _ _ _ =>
    rw [RoomManager.lookup_insertRoom_map, Core.roomIdAfter]
    split_ifs <;> rfl
  | resume _ _ hrm | close _ _ _ hrm =>
    rw [(RoomManager.playerRoomMap_mark hrm).1]
    rfl
  | sweep _ _ hfold =>
    rw [(Core.sweep_lookup hfold q).2, Core.roomIdAfter]
    split_ifs <;> rfl
  | idle | accept _ | login _ | wait _ _ _ | release _ _ _ => rfl

namespace Server

/-- **Who is online after a step.** -/
theorem isOnline_step {s s' : Server} {e : Event} (hs : server.step s e s') (q : PlayerId) :
    s'.playerManager.isOnline q = match s.act e with
      | .login _ => if q = s.nextPlayerId then true else s.playerManager.isOnline q
      | .resume _ p _ => if q = p then true else s.playerManager.isOnline q
      | .close sid _ =>
        if q = (s.session sid).playerId then false else s.playerManager.isOnline q
      | _ => s.playerManager.isOnline q := (step_core hs).isOnline_eq q

/-- **Who is in which room after a step.** -/
theorem getRoomIdByPlayer_step {s s' : Server} {e : Event} (hs : server.step s e s')
    (q : PlayerId) : s'.roomManager.getRoomIdByPlayer q = match s.act e with
      | .room _ ps =>
        if q ∈ ps then (s.roomManager.playerRoomMap.lookup q).getD s.roomManager.nextRoomId
        else s.roomManager.getRoomIdByPlayer q
      | .sweep ps _ => if q ∈ ps then -1 else s.roomManager.getRoomIdByPlayer q
      | _ => s.roomManager.getRoomIdByPlayer q := (step_core hs).getRoomIdByPlayer_eq q

/-- **What is recorded after a step**: a login and `create_room` alone write it. -/
theorem recorded_step {tr : History} {s s' : Server} {e : Event} (h : server.Run tr s)
    (hs : server.step s e s') (q : PlayerId) : s'.recorded q = match s.act e with
      | .login _ => if q = s.nextPlayerId then some (true, -1) else s.recorded q
      | .room _ ps =>
        if q ∈ ps then (s.recorded q).map fun x => (x.1, s.roomManager.nextRoomId) else s.recorded q
      | _ => s.recorded q := by
  unfold recorded MemoryPlayerStateRepository.loadPlayerState
  rcases repository_step hs with ⟨hlogin, hroom, hrepo⟩ | ⟨sid, st, hact, hid, hon, hno, hrepo⟩ |
    ⟨p, ps, hact, hrepo⟩
  · have hsame : (s'.playerStateRepository.states.lookup q).map (fun st => (st.online, st.roomId)) =
        (s.playerStateRepository.states.lookup q).map fun st => (st.online, st.roomId) := by
      rcases hrepo with hrepo | ⟨p, score, hrepo⟩
      · rw [hrepo]
      · rw [hrepo, MemoryPlayerStateRepository.lookup_updateScore]
        split_ifs with hq
        · rw [hq, Option.map_map]
          rfl
        · rfl
    rw [hsame]
    cases hact : s.act e with
    | login sid => rw [hact] at hlogin; cases hlogin
    | room p ps => rw [hact] at hroom; cases hroom
    | _ => rfl
  · rw [hrepo, hact, MemoryPlayerStateRepository.savePlayerState, Table.lookup_insert', hid]
    dsimp only
    split_ifs
    · rw [Option.map_some, hon, hno]
    · rfl
  · rw [hrepo, hact, (MemoryPlayerStateRepository.lookup_saveRoomId (keyed_of_run h) _ ps).2]
    dsimp only
    split_ifs
    · rw [Option.map_map, Option.map_map]
      rfl
    · rfl

/-- **A step keeps the records right exactly when it has nothing to update in them.** -/
theorem recordsCurrent_step {tr : History} {s s' : Server} {e : Event} (h : server.Run tr s)
    (hs : server.step s e s') (hP : s.RecordsCurrent) :
    s'.RecordsCurrent ↔ s.KeepsRecords (s.act e) := by
  have hissued : ∀ q, s'.Issued q ↔
      s.Issued q ∨ q ∈ ((s.act e).issues s.core).map fun x => x.2.1 := fun q => by
    rw [Issued, step_issued hs, List.map_append, List.mem_append]
    rfl
  have hrec := recorded_step h hs
  have hon := isOnline_step hs
  have hroom := getRoomIdByPlayer_step hs
  have hcopy : ∀ {q o r}, s.Issued q → (s.recorded q = some (o, r) ↔
      o = s.playerManager.isOnline q ∧ r = s.roomManager.getRoomIdByPlayer q) := fun {q o r} hq => by
    rw [hP q hq, Option.some.injEq, Prod.mk.injEq, eq_comm, @eq_comm _ r]
  unfold RecordsCurrent
  cases hact : s.act e with
  | idle | accept | wait | release =>
    simp only [hissued, hrec, hon, hroom, hact, Act.issues, List.map_nil, List.not_mem_nil, or_false]
    exact iff_of_true hP trivial
  | login sid =>
    simp only [hissued, hrec, hon, hroom, hact, Act.issues, List.map_cons, List.map_nil,
      List.mem_singleton]
    constructor
    · intro h'
      have hnew := h' s.nextPlayerId (.inr rfl)
      rw [if_pos rfl, if_pos rfl] at hnew
      exact (Prod.mk.inj (Option.some.inj hnew)).2.symm
    · intro hC q hq
      have hC : s.roomManager.getRoomIdByPlayer s.nextPlayerId = -1 := hC
      split_ifs with hqn
      · rw [hqn, hC]
      · exact hP q (hq.resolve_right hqn)
  | room p ps =>
    simp only [hissued, hrec, hon, hroom, hact, Act.issues, List.map_nil, List.not_mem_nil, or_false]
    have hroom' : ∀ q ∈ ps, s.Issued q → ((s.recorded q).map (fun x => (x.1, s.roomManager.nextRoomId)) =
        some (s.playerManager.isOnline q,
          (s.roomManager.playerRoomMap.lookup q).getD s.roomManager.nextRoomId) ↔
        (s.roomManager.playerRoomMap.lookup q).getD s.roomManager.nextRoomId =
          s.roomManager.nextRoomId) := fun q _ hq => by
      rw [hP q hq, Option.map_some, Option.some.injEq, Prod.mk.injEq]
      exact (and_iff_right rfl).trans eq_comm
    constructor
    · intro h' q hq hi
      have hnew := h' q hi
      rw [if_pos hq, if_pos hq] at hnew
      exact (hroom' q hq hi).1 hnew
    · intro hC q hi
      split_ifs with hq
      · exact (hroom' q hq hi).2 (hC q hq hi)
      · exact hP q hi
  | resume | close =>
    simp only [hissued, hrec, hon, hroom, hact, Act.issues, List.map_nil, List.not_mem_nil, or_false]
    constructor
    · intro h' hp
      have honline := ((hcopy hp).1 (h' _ hp)).1
      rw [if_pos rfl] at honline
      exact honline.symm
    · intro hC q hq
      refine (hcopy hq).2 ⟨?_, rfl⟩
      split_ifs with hqp
      · subst hqp
        exact (hC hq).symm
      · rfl
  | sweep ps now =>
    simp only [hissued, hrec, hon, hroom, hact, Act.issues, List.map_nil, List.not_mem_nil, or_false]
    constructor
    · intro h' p hp hi
      have hnone := ((hcopy hi).1 (h' p hi)).2
      rw [if_pos hp] at hnone
      exact hnone.symm
    · intro hC q hq
      refine (hcopy hq).2 ⟨rfl, ?_⟩
      split_ifs with hqp
      · exact (hC q hqp hq).symm
      · rfl

end Server

/-! ### Runs -/

/-- **When the stored records track the live state.**  In every run, the record of each issued
player has the `online` flag and the room that the managers have, in every state passed
through, exactly when no step has something to update in a record that it leaves. -/
theorem records_current_iff {tr : History} {s : Server} (h : server.Run tr s) :
    (∀ t ∈ Transition.System.visited tr s, t.RecordsCurrent) ↔
      ∀ x ∈ tr, x.1.KeepsRecords (x.1.act x.2) :=
  h.forall_visited_iff (P := Server.RecordsCurrent) (C := fun t e => t.KeepsRecords (t.act e))
    (fun _ hp => absurd hp List.not_mem_nil) fun _ hrun hP hs =>
      Server.recordsCurrent_step hrun hs hP

/-- Two players log in and are matched, and the records follow. -/
theorem records_current_iff_pairUp : ∃ tr s, server.Run tr s ∧ s.recorded 10000 = some (true, 1) ∧
    ∀ t ∈ Transition.System.visited tr s, t.RecordsCurrent := by
  obtain ⟨tr, s, h, hrec, hC⟩ := Server.exists_run
    (Q := fun tr s => s.recorded 10000 = some (true, 1) ∧
      ∀ x ∈ tr, x.1.KeepsRecords (x.1.act x.2))
    Server.pairUp (by decide +kernel)
  exact ⟨tr, s, h, hrec, (records_current_iff h).2 hC⟩

/-- **A record that is never corrected.**  A matched player disconnects and is removed after
30 seconds: the managers have it offline and in no room, and its record says online and in
room 1. -/
theorem record_left_behind : ∃ tr s, server.Run tr s ∧ (∀ x ∈ tr, x.2.onOpen x.1) ∧
    s.Issued 10000 ∧ s.recorded 10000 = some (true, 1) ∧ s.playerManager.isOnline 10000 = false ∧
    s.roomManager.getRoomIdByPlayer 10000 = -1 ∧ ¬ s.RecordsCurrent := by
  obtain ⟨tr, s, h, hopen, hissued, hrec, hoff, hroom⟩ := Server.exists_run
    (Q := fun tr s => (∀ x ∈ tr, x.2.onOpen x.1) ∧ s.Issued 10000 ∧
      s.recorded 10000 = some (true, 1) ∧ s.playerManager.isOnline 10000 = false ∧
      s.roomManager.getRoomIdByPlayer 10000 = -1)
    (Server.pairUp ++ [.close 0 {}, .sweep [10000] { steady := 31 * 10 ^ 9 }])
    (by decide +kernel)
  refine ⟨tr, s, h, hopen, hissued, hrec, hoff, hroom, fun hP => ?_⟩
  have hcur := hP 10000 hissued
  rw [hrec, hoff] at hcur
  cases hcur

end GameServer
