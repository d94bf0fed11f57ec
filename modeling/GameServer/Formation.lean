/-
# What rooms are made of

Whatever requests arrive, the match queue holds each waiting player once and only
positive ids (`MatchQueue.Valid`), and every entry of `rooms_` is a room with players,
each listed once, and no null pointer (`Room.Formed`).  This depends neither on the
counters nor on who is connected: `Formed` holds at the end of every run.  As long as the
room counter stays in range, the ids of the rooms, and those that players are mapped to,
are below it (`Numbered`).
-/

import GameServer.Runs

namespace GameServer

/-- The room under the key `r`: it has that id and players, each of them once. -/
structure Room.Formed (room : Room) (r : RoomId) : Prop where
  roomId_eq : room.roomId = r
  nodup : room.playerIds.Nodup
  ne_nil : room.playerIds ≠ []
  pos : ∀ p ∈ room.playerIds, 0 < p

/-- The queue and the rooms. -/
structure Formed (c : Core) : Prop where
  queue : c.matchQueue.Valid
  room : ∀ {r o}, c.roomManager.rooms.lookup r = some o → ∃ room, o = some room ∧ room.Formed r

namespace Formed

variable {c c' : Core}

theorem init : Formed {} where
  queue := .empty
  room h := by simp at h

/-- The players to be matched: distinct, positive, and waiting or just joined. -/
theorem popped (h : Formed c) {p : PlayerId} (hp : 0 < p) (hq : p ∉ c.matchQueue.inQueue) :
    (c.popped p).1.Nodup ∧ (∀ x ∈ (c.popped p).1, 0 < x ∧ (x = p ∨ x ∈ c.matchQueue.queue)) ∧
      (c.popped p).2.Valid ∧ ∀ x, x ∈ (c.popped p).2.queue ↔
        x ∉ (c.popped p).1 ∧ (x = p ∨ x ∈ c.matchQueue.queue) := by
  have hjoin := h.queue.join hp hq
  obtain ⟨hnd, hsub, hvalid, hrest⟩ := hjoin.pop
  have hmem : ∀ x, x ∈ (c.matchQueue.join p).queue ↔ x = p ∨ x ∈ c.matchQueue.queue := fun x => by
    rw [MatchQueue.join, List.mem_append, List.mem_singleton, or_comm]
  refine ⟨hnd, fun x hx => ⟨hjoin.pos x (hsub x hx), (hmem x).1 (hsub x hx)⟩, hvalid, fun x => ?_⟩
  rw [← hmem]
  exact hrest x

theorem room_mark (h : Formed c) {p : PlayerId} {conn : PlayerConnState} {rm : RoomManager}
    (hrm : c.roomManager.mark p conn = .ok rm) {r : RoomId} {o : Option Room}
    (hr : rm.rooms.lookup r = some o) : ∃ room, o = some room ∧ room.Formed r := by
  rcases RoomManager.exists_room_of_mark hrm hr with hold | ⟨room, hold, rfl⟩
  · exact h.room hold
  · obtain ⟨_, heq, hform⟩ := h.room hold
    obtain rfl := Option.some.inj heq
    exact ⟨_, rfl, hform.roomId_eq, hform.nodup, hform.ne_nil, hform.pos⟩

theorem expire (h : Formed c) {p : PlayerId} (hexp : c.expire p = .ok c') : Formed c' := by
  obtain ⟨rm, hrm, rfl⟩ := Core.expire_ok hexp
  refine ⟨h.queue, fun {r o} hr => ?_⟩
  rcases RoomManager.exists_room_of_removePlayer hrm hr with hold | ⟨room, hold, rfl, hne⟩
  · exact h.room hold
  · obtain ⟨_, heq, hform⟩ := h.room hold
    obtain rfl := Option.some.inj heq
    exact ⟨_, rfl, hform.roomId_eq, hform.nodup.erase p, hne,
      fun q hq => hform.pos q (List.mem_of_mem_erase hq)⟩

/-- **The invariant is kept by every step.** -/
theorem step {a : Act} (h : Formed c) (hs : CoreStep c a c') : Formed c' := by
  cases hs with
  | wait hp hq _ => exact ⟨(h.popped hp hq).2.2.1, h.room⟩
  | room hp hq hne _ =>
    obtain ⟨hnd, hsub, hvalid, -⟩ := h.popped hp hq
    refine ⟨hvalid, fun {r o} hr => ?_⟩
    rcases RoomManager.exists_room_of_insertRoom hr with hold | ⟨-, -, rfl⟩
    · exact h.room hold
    · exact ⟨_, rfl, rfl, hnd, hne, fun x hx => (hsub x hx).1⟩
  | resume _ _ hrm => exact ⟨h.queue, h.room_mark hrm⟩
  | close _ _ _ hrm => exact ⟨h.queue.leave _, h.room_mark hrm⟩
  | sweep _ _ hfold => exact Core.sweep_induction hfold h fun hP _ hexp => hP.expire hexp
  | idle | accept _ | login _ | release _ _ _ => exact ⟨h.queue, h.room⟩

theorem of_run {tr : History} {s : Server} (h : server.Run tr s) : Formed s.core :=
  core_invariant (C := fun _ _ => True) init (fun hP _ hs => hP.step hs) h fun _ _ => trivial

/-- A room that `get_room` finds is formed. -/
theorem getRoom (h : Formed c) {r : RoomId} {room : Room}
    (hr : c.roomManager.getRoom r = some room) : room.Formed r := by
  obtain ⟨_, heq, hform⟩ := h.room ((RoomManager.getRoom_eq_some ..).1 hr)
  exact Option.some.inj heq ▸ hform

end Formed

/-- The ids of rooms are below the next one. -/
structure Numbered (c : Core) : Prop where
  room_lt : ∀ {r}, r ∈ c.roomManager.rooms → r < c.roomManager.nextRoomId
  map_lt : ∀ {p r}, c.roomManager.playerRoomMap.lookup p = some r → r < c.roomManager.nextRoomId

namespace Numbered

variable {c c' : Core}

theorem init : Numbered {} where
  room_lt h := absurd h Finmap.notMem_empty
  map_lt h := by simp at h

/-- The id of the next room is free. -/
theorem lookup_next (h : Numbered c) :
    c.roomManager.rooms.lookup c.roomManager.nextRoomId = none :=
  (Table.not_mem_iff ..).1 fun hmem => lt_irrefl _ (h.room_lt hmem)

theorem mark (h : Numbered c) {p : PlayerId} {conn : PlayerConnState} {rm : RoomManager}
    (hrm : c.roomManager.mark p conn = .ok rm) :
    (∀ {r}, r ∈ rm.rooms → r < rm.nextRoomId) ∧
      ∀ {p r}, rm.playerRoomMap.lookup p = some r → r < rm.nextRoomId := by
  obtain ⟨hmap, hnext⟩ := RoomManager.playerRoomMap_mark hrm
  rw [hmap, hnext]
  refine ⟨fun {r} hr => h.room_lt ?_, h.map_lt⟩
  rw [Table.mem_iff_isSome, RoomManager.lookup_mark hrm, Option.isSome_map] at hr
  exact (Table.mem_iff_isSome ..).2 hr

theorem expire (h : Numbered c) {p : PlayerId} (hexp : c.expire p = .ok c') : Numbered c' := by
  obtain ⟨rm, hrm, rfl⟩ := Core.expire_ok hexp
  rcases RoomManager.removePlayer_ok hrm with ⟨-, rfl⟩ | ⟨r₀, room₀, -, hr₀, hnext, hmap, hrooms⟩
  · exact ⟨h.room_lt, h.map_lt⟩
  · constructor
    case room_lt =>
      intro r hr
      refine hnext ▸ h.room_lt ?_
      rw [Table.mem_iff_isSome, hrooms] at hr
      split_ifs at hr with heq
      · cases hr
      · exact heq ▸ Finmap.mem_of_lookup_eq_some hr₀
      · exact (Table.mem_iff_isSome ..).2 hr
    case map_lt =>
      intro q r hq
      refine hnext ▸ h.map_lt (p := q) ?_
      have hq : rm.playerRoomMap.lookup q = some r := hq
      rw [hmap, Table.lookup_erase'] at hq
      split_ifs at hq
      exact hq

/-- **The invariant is kept by every step** that keeps the room counter in range. -/
theorem step {a : Act} (h : Numbered c) (hr : RoomInRange c a) (hs : CoreStep c a c') :
    Numbered c' := by
  cases hs with
  | @room p₀ _ _ _ _ =>
    have hnext : (c.roomManager.insertRoom (c.popped p₀).1).nextRoomId =
        c.roomManager.nextRoomId + 1 := hr rfl
    constructor
    case room_lt =>
      intro r hmem
      rw [hnext]
      rcases (Table.mem_insertNew ..).1 hmem with rfl | hmem
      · exact lt_add_one _
      · exact (h.room_lt hmem).trans (lt_add_one _)
    case map_lt =>
      intro p r hp
      rw [hnext]
      rw [RoomManager.lookup_insertRoom_map] at hp
      cases hold : c.roomManager.playerRoomMap.lookup p with
      | some r₀ =>
        rw [hold, Option.getD_some, ite_self] at hp
        exact (Option.some.inj hp ▸ h.map_lt hold).trans (lt_add_one _)
      | none =>
        rw [hold, Option.getD_none] at hp
        split_ifs at hp
        exact Option.some.inj hp ▸ lt_add_one _
  | resume _ _ hrm | close _ _ _ hrm => exact ⟨(h.mark hrm).1, (h.mark hrm).2⟩
  | sweep _ _ hfold => exact Core.sweep_induction hfold h fun hP _ hexp => hP.expire hexp
  | idle | accept _ | login _ | wait _ _ _ | release _ _ _ => exact ⟨h.room_lt, h.map_lt⟩

theorem of_run {tr : History} {s : Server} (h : server.Run tr s)
    (hr : tr.roomsCreated < 2 ^ 31 - 1) : Numbered s.core :=
  core_invariant init step h (roomsInRange h hr)

end Numbered
end GameServer
