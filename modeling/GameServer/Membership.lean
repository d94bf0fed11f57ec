/-
# Rooms and the map to them

`player_room_map_` should lead from every member of a room back to the room.
`create_room` stores the entries with `insert`, which keeps an entry that is there,
and nothing between a MatchReq and `create_room` asks `is_player_in_room`: a player
who is in a room and matches again becomes a member of a second room and stays mapped
to the first.  Removing that player by id then takes the id out of the first room, and
the second is never emptied.

`members_mapped` says when this does not happen: in a run that makes rooms only for
players without a room (`Core.RoomsFresh`), members are mapped to their room
throughout, a notified player is found in the room of the notification, and a room
whose members are all removed is gone.
-/

import GameServer.Formation

namespace GameServer

/-- Every member of a room is mapped to it. -/
def Core.MembersMapped (c : Core) : Prop :=
  ∀ r room, c.roomManager.getRoom r = some room → ∀ p ∈ room.playerIds,
    c.roomManager.playerRoomMap.lookup p = some r

/-- The step makes no room for a player who has one. -/
def Core.RoomsFresh (c : Core) : Act → Prop
  | .room _ ps => ∀ p ∈ ps, p ∉ c.roomManager.playerRoomMap
  | _ => True

/-- Removing the members of a room by id, in any order, deletes the room. -/
def RoomManager.Empties (m : RoomManager) (r : RoomId) (room : Room) : Prop :=
  ∀ order : List PlayerId, order.Perm room.playerIds →
    ∃ m', order.foldlM RoomManager.removePlayer m = .ok m' ∧ r ∉ m'.rooms

/-- Every player named in a `RoomCreatedNotify` that a MatchReq sends has the room id of
the notification afterwards. -/
def NotifiesOwnRoom (s : Server) (e : Event) : Prop :=
  ∀ sid req now s', e = .request sid (.match req) now → server.step s e s' →
    ∀ sid' n, (sid', Response.roomCreatedNotify n) ∈ s'.sent.drop s.sent.length →
      ∀ p ∈ n.players, s'.roomManager.getRoomIdByPlayer p = n.roomId

namespace Core

variable {c c' : Core}

theorem MembersMapped.room (h : c.MembersMapped) {p₀ : PlayerId} {ps : List PlayerId}
    (q : MatchQueue) (hC : c.RoomsFresh (.room p₀ ps)) :
    MembersMapped { c with matchQueue := q, roomManager := c.roomManager.insertRoom ps } := by
  intro r room hr p hp
  rw [RoomManager.lookup_insertRoom_map]
  rcases RoomManager.exists_room_of_insertRoom ((RoomManager.getRoom_eq_some ..).1 hr) with
    hold | ⟨rfl, -, heq⟩
  · rw [h r room ((RoomManager.getRoom_eq_some ..).2 hold) p hp, Option.getD_some, ite_self]
  · obtain rfl := Option.some.inj heq
    have hp : p ∈ ps := hp
    rw [if_pos hp, (Table.not_mem_iff ..).1 (hC p hp), Option.getD_none]

theorem MembersMapped.mark (h : c.MembersMapped) {p : PlayerId} {conn : PlayerConnState}
    {rm : RoomManager} (hrm : c.roomManager.mark p conn = .ok rm) {r : RoomId} {room : Room}
    (hr : rm.getRoom r = some room) {q : PlayerId} (hq : q ∈ room.playerIds) :
    rm.playerRoomMap.lookup q = some r := by
  rw [(RoomManager.playerRoomMap_mark hrm).1]
  rcases RoomManager.exists_room_of_mark hrm ((RoomManager.getRoom_eq_some ..).1 hr) with
    hold | ⟨room₀, hold, heq⟩
  · exact h r room ((RoomManager.getRoom_eq_some ..).2 hold) q hq
  · obtain rfl := Option.some.inj heq
    exact h r room₀ ((RoomManager.getRoom_eq_some ..).2 hold) q hq

/-- A player who leaves the map leaves the only room it could be listed in. -/
theorem MembersMapped.expire (h : c.MembersMapped) (hf : Formed c) {p : PlayerId}
    (hexp : c.expire p = .ok c') : c'.MembersMapped := by
  obtain ⟨rm, hrm, rfl⟩ := expire_ok hexp
  rcases RoomManager.removePlayer_ok hrm with ⟨-, rfl⟩ | ⟨r₀, room₀, hp, hr₀, -, hmap, hrooms⟩
  · exact h
  · intro r room hr q hq
    have hr : rm.rooms.lookup r = some (some room) := (RoomManager.getRoom_eq_some ..).1 hr
    rw [hrooms] at hr
    rw [hmap, Table.lookup_erase']
    split_ifs at hr with heq
    · subst heq
      obtain rfl := Option.some.inj (Option.some.inj hr)
      have hr₀ := (RoomManager.getRoom_eq_some ..).2 hr₀
      obtain ⟨hne, hmem⟩ := (hf.getRoom hr₀).nodup.mem_erase_iff.1 hq
      rw [if_neg hne]
      exact h r room₀ hr₀ q hmem
    · have hq' := h r room ((RoomManager.getRoom_eq_some ..).2 hr) q hq
      rw [if_neg, hq']
      rintro rfl
      exact heq (Option.some.inj (hq'.symm.trans hp))

/-- **A step that makes no second room for a player keeps the members mapped.** -/
theorem MembersMapped.step {a : Act} (h : c.MembersMapped) (hf : Formed c) (hC : c.RoomsFresh a)
    (hs : CoreStep c a c') : c'.MembersMapped := by
  cases hs with
  | room _ _ _ _ => exact h.room _ hC
  | resume _ _ hrm | close _ _ _ hrm => exact fun r room hr q hq => h.mark hrm hr hq
  | sweep _ _ hfold =>
    exact (sweep_induction (P := fun c => Formed c ∧ c.MembersMapped) hfold ⟨hf, h⟩
      fun hP _ hexp => ⟨hP.1.expire hexp, hP.2.expire hP.1 hexp⟩).2
  | idle | accept _ | login _ | wait _ _ _ | release _ _ _ => exact h

/-- **A step that makes one leaves a member who is mapped elsewhere.** -/
theorem MembersMapped.roomsFresh {a : Act} (h : c'.MembersMapped) (hn : Numbered c)
    (hs : CoreStep c a c') : c.RoomsFresh a := by
  cases hs with
  | room _ _ _ _ =>
    intro p hp hmem
    obtain ⟨r₀, hr₀⟩ := Finmap.mem_iff.1 hmem
    have hmap := h c.roomManager.nextRoomId _ ((RoomManager.getRoom_eq_some ..).2
      ((RoomManager.lookup_insertRoom hn.lookup_next _ _).trans (if_pos rfl))) p hp
    rw [RoomManager.lookup_insertRoom_map, if_pos hp, hr₀, Option.getD_some] at hmap
    exact (hn.map_lt hr₀).ne (Option.some.inj hmap)
  | idle | accept _ | login _ | wait _ _ _ | resume _ _ _ | close _ _ _ _ | release _ _ _
  | sweep _ _ _ => trivial

end Core

/-- **Removing every member deletes the room**, when the members are mapped to it. -/
theorem RoomManager.empties {m : RoomManager} {r : RoomId} {room : Room}
    (hr : m.getRoom r = some room) (hnd : room.playerIds.Nodup) (hne : room.playerIds ≠ [])
    (hmap : ∀ p ∈ room.playerIds, m.playerRoomMap.lookup p = some r) : m.Empties r room := by
  intro order
  induction order generalizing m room with
  | nil => exact fun hperm => absurd hperm.nil_eq.symm hne
  | cons p order ih =>
    intro hperm
    have hp : p ∈ room.playerIds := hperm.subset (List.mem_cons_self ..)
    have hrest : order.Perm (room.playerIds.erase p) := by
      simpa using hperm.erase p
    have hr := (getRoom_eq_some ..).1 hr
    obtain ⟨m₁, hm₁⟩ := removePlayer_isOk (m := m) (p := p) fun r' hr' => by
      obtain rfl := Option.some.inj ((hmap p hp).symm.trans hr')
      exact ⟨room, hr⟩
    rw [List.foldlM_cons, hm₁]
    rcases removePlayer_ok hm₁ with ⟨hnone, -⟩ | ⟨r', room', hp', hroom', -, hmap₁, hrooms⟩
    · rw [hmap p hp] at hnone
      cases hnone
    · obtain rfl := Option.some.inj ((hmap p hp).symm.trans hp')
      obtain rfl := Option.some.inj (Option.some.inj (hr.symm.trans hroom'))
      have hlk := hrooms r
      rw [if_pos rfl] at hlk
      split_ifs at hlk with hcount
      · -- Nobody is left, so this was the last of the order.
        have hnil : room.playerIds.erase p = [] := List.length_eq_zero_iff.1 hcount
        rw [hnil] at hrest
        rw [hrest.eq_nil]
        exact ⟨m₁, rfl, (Table.not_mem_iff ..).2 hlk⟩
      · refine ih ((getRoom_eq_some ..).2 hlk) (hnd.erase p)
          (fun hnil => hcount (List.length_eq_zero_iff.2 hnil)) (fun q hq => ?_) hrest
        obtain ⟨hqp, hq⟩ := hnd.mem_erase_iff.1 hq
        rw [hmap₁, Table.lookup_erase', if_neg hqp, hmap q hq]

/-- A player without a room is found in the room made for the player. -/
theorem notifiesOwnRoom {s : Server} {e : Event} (hC : s.core.RoomsFresh (s.act e)) :
    NotifiesOwnRoom s e := by
  rintro sid req now s' rfl hs sid' n hn p hp
  have h : MatchService.handleMatch (s.received sid now) sid req = .ok s' := hs.2
  rcases Server.handleMatch_ok rfl h with
    ⟨-, reason, rfl⟩ | ⟨hpos, hq, ⟨-, rfl⟩ | ⟨hne, -, rfl⟩⟩
  · simp [MatchService.sendMatchFailure, Server.send, Server.received,
      Server.updateLastActiveTime] at hn
  · simp [MatchService.sendMatchSuccess, Server.send, Server.received,
      Server.updateLastActiveTime] at hn
  · rw [Server.act_match_room (s := s) sid now hpos hq hne] at hC
    simp [MatchService.sendMatchSuccess, Server.send, Server.received,
      Server.updateLastActiveTime, Server.sendEach] at hn
    obtain ⟨-, -, -, rfl⟩ := hn
    have hp : p ∈ (s.core.popped (toInt req.playerId)).1 := hp
    have hfresh : s.roomManager.playerRoomMap.lookup p = none :=
      (Table.not_mem_iff ..).1 (hC p hp)
    have hmap := RoomManager.lookup_insertRoom_map s.roomManager
      (s.core.popped (toInt req.playerId)).1 p
    rw [if_pos hp, hfresh, Option.getD_none] at hmap
    exact congrArg (fun o => o.getD (-1)) hmap

/-- **When a player is in at most one room.**  In a run that makes rooms only for players
without a room, every member of a room is mapped to it, and removing the members of a
room deletes it, in every state passed through; and the players of a notification are
found in its room.  Conversely, as long as the room counter stays in range, a run whose
members are mapped throughout makes rooms for no other players. -/
theorem members_mapped_iff {tr : History} {s : Server} (h : server.Run tr s) :
    ((∀ x ∈ tr, x.1.core.RoomsFresh (x.1.act x.2)) →
        (∀ t ∈ Transition.System.visited tr s, t.core.MembersMapped ∧
          ∀ r room, t.roomManager.getRoom r = some room → t.roomManager.Empties r room) ∧
        ∀ x ∈ tr, NotifiesOwnRoom x.1 x.2) ∧
      (tr.roomsCreated < 2 ^ 31 - 1 →
        (∀ t ∈ Transition.System.visited tr s, t.core.MembersMapped) →
          ∀ x ∈ tr, x.1.core.RoomsFresh (x.1.act x.2)) := by
  have hinit : (server.init).core.MembersMapped := fun r room hr => by
    simp [RoomManager.getRoom, server, Server.core] at hr
  refine ⟨fun hC => ⟨fun t ht => ?_, fun x hx => notifiesOwnRoom (hC x hx)⟩, fun hn hP => ?_⟩
  · obtain ⟨tr', hsuf, hrun, hmapped⟩ := h.forall_visited
      (P := fun tr' t => (∀ x ∈ tr', x.1.core.RoomsFresh (x.1.act x.2)) → t.core.MembersMapped)
      (fun hrun hC => (core_invariant (P := fun c => Formed c ∧ c.MembersMapped)
        ⟨.init, hinit⟩ (fun hP hC hs => ⟨hP.1.step hs, hP.2.step hP.1 hC hs⟩) hrun hC).2) t ht
    have hmapped := hmapped fun x hx => hC x (hsuf.subset hx)
    refine ⟨hmapped, fun r room hr => ?_⟩
    have hform := (Formed.of_run hrun).getRoom hr
    exact RoomManager.empties hr hform.nodup hform.ne_nil fun p hp => hmapped r room hr p hp
  · refine (Transition.System.Run.forall_visited_iff (P := fun t : Server => t.core.MembersMapped)
      (C := fun t e => t.core.RoomsFresh (t.act e)) hinit h
      fun {tr' t e t'} hsuf hrun hP hs => ⟨fun h' => ?_, fun hC => ?_⟩).1 hP
    · have hle : History.roomsCreated tr' ≤ tr.roomsCreated :=
        roomsCreated_le_of_suffix ((List.suffix_cons ..).trans hsuf)
      exact h'.roomsFresh (Numbered.of_run hrun (lt_of_le_of_lt hle hn)) (Server.step_core hs)
    · exact hP.step (Formed.of_run hrun) hC (Server.step_core hs)

/-- The run in which two players log in and are matched. -/
theorem members_mapped_iff_pairUp : ∃ tr s, server.Run tr s ∧ tr.length = 6 ∧
    ((∀ t ∈ Transition.System.visited tr s, t.core.MembersMapped) →
      ∀ x ∈ tr, x.1.core.RoomsFresh (x.1.act x.2)) := by
  obtain ⟨tr, s, h, hn, hlen⟩ := Server.exists_run
    (Q := fun tr _ => tr.roomsCreated < 2 ^ 31 - 1 ∧ tr.length = 6) Server.pairUp
    (by decide +kernel)
  exact ⟨tr, s, h, hlen, (members_mapped_iff h).2 hn⟩

/-- **A player who matches again is in two rooms.**  The first of two matched players and
a third are matched; the first is a member of room 2 and mapped to room 1, and removing
both members of room 2 by id leaves it with the first in it. -/
theorem member_of_two_rooms : ∃ tr s room, server.Run tr s ∧ (∀ x ∈ tr, x.2.onOpen x.1) ∧
    s.roomManager.getRoom 2 = some room ∧ 10000 ∈ room.playerIds ∧
    s.roomManager.getRoomIdByPlayer 10000 = 1 ∧ ¬ s.core.MembersMapped ∧
    ¬ s.roomManager.Empties 2 room := by
  obtain ⟨tr, s, h, hopen, ⟨room, hroom, hmem, hids, hleft⟩, hmap⟩ := Server.exists_run
    (Q := fun tr s => (∀ x ∈ tr, x.2.onOpen x.1) ∧
      (∃ room ∈ s.roomManager.getRoom 2, 10000 ∈ room.playerIds ∧
        room.playerIds = [10000, 10002] ∧
        ([10000, 10002].foldlM RoomManager.removePlayer s.roomManager).toOption.any
          (fun m => 2 ∈ m.rooms) = true) ∧
      s.roomManager.playerRoomMap.lookup 10000 = some 1)
    (Server.pairUp ++ [.accept 2 {}, .request 2 (.login { username := [0x63] }) {},
      .request 0 (.match { playerId := 10000 }) {}, .request 2 (.match { playerId := 10002 }) {}])
    (by decide +kernel)
  refine ⟨tr, s, room, h, hopen, hroom, hmem, ?_, fun hmapped => ?_, fun hempties => ?_⟩
  · rw [RoomManager.getRoomIdByPlayer, hmap, Option.getD_some]
  · have hmap' := hmapped 2 room hroom 10000 hmem
    exact absurd (hmap.symm.trans hmap') (by decide)
  · obtain ⟨m', hm', hout⟩ := hempties [10000, 10002] (hids ▸ List.Perm.refl _)
    rw [hm'] at hleft
    exact hout (of_decide_eq_true hleft)

end GameServer
