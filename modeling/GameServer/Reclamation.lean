/-
# What is left when everybody is gone

`README.md` ends a session of the simulated clients with `online=0 match_queue=0
room=0`.  This is not so for arbitrary clients, but it is for those that behave as the
simulator does (`Conforms`): every entry of every container is then accounted for by an
open session or by a runtime state that a sweep will find (`Accounted`).

The queue and the rooms hang together (`Queued`).  The queue holds connected players
without a room, because a player matches once and leaves the queue when its connection
closes or when it is given a room, so nobody is ever given a second one.  The runtime
states are those of players who are `Offline` since a close, or connected (`Held`).
-/

import GameServer.ConformingClients
import GameServer.Connectivity
import GameServer.Membership

namespace GameServer

/-! ### The invariant -/

/-- The queue holds connected players without a room, and who is queued or has a room has
matched. -/
structure Queued (c : Core) (L : Ledger) : Prop where
  queue : ∀ {p}, p ∈ c.matchQueue.queue →
    p ∈ c.playerManager.players ∧ p ∉ c.roomManager.playerRoomMap
  matched : ∀ {p}, p ∈ c.matchQueue.queue ∨ p ∈ c.roomManager.playerRoomMap → p ∈ L.matched

/-- The runtime states are those of players who are connected or `Offline` since a close. -/
structure Held (c : Core) (L : Ledger) : Prop where
  held : ∀ {p}, p ∈ c.playerStateManager.states → c.Offline p ∨ p ∈ c.playerManager.players
  closed : ∀ {p t}, c.OfflineSince p t → t ∈ L.closed

/-- Every entry of the containers is accounted for. -/
structure Accounted (c : Core) (L : Ledger) : Prop where
  introduced : Introduced c L
  queued : Queued c L
  members : c.MembersMapped
  held : Held c L

variable {c c' : Core} {L L' : Ledger}

namespace Queued

theorem init : Queued {} {} where
  queue h := absurd h List.not_mem_nil
  matched h := h.elim (fun h => absurd h List.not_mem_nil) fun h => absurd h Finmap.notMem_empty

/-- Whoever is in the queue once `p` joins is connected and has no room. -/
theorem joined (h : Queued c L) (hi : Introduced c L) (hw : WellBound c) {p : PlayerId}
    (hp : 0 < p) (hallow : p ∉ L.matched ∧ ∃ x ∈ L.issued, x.2.1 = p ∧ c.Open x.1) {x : PlayerId}
    (hx : x = p ∨ x ∈ c.matchQueue.queue) :
    x ∈ c.playerManager.players ∧ x ∉ c.roomManager.playerRoomMap := by
  rcases hx with rfl | hx
  · exact ⟨hi.connected hw hp hallow.2, fun hmap => hallow.1 (h.matched (.inr hmap))⟩
  · exact h.queue hx

/-- Conforming clients make rooms only for players without a room. -/
theorem roomsFresh {a : Act} (h : Queued c L) (hi : Introduced c L) (hw : WellBound c)
    (hf : Formed c) (hallow : L.Allows c a) (hs : CoreStep c a c') : c.RoomsFresh a := by
  cases hs with
  | room hp hq _ _ =>
    intro x hx
    exact (h.joined hi hw hp hallow ((hf.popped hp hq).2.1 x hx).2).2
  | idle | accept _ | login _ | wait _ _ _ | resume _ _ _ | close _ _ _ _ | release _ _ _
  | sweep _ _ _ => trivial

theorem matched_of_records {a : Act} (h : Queued c L) (hrec : L.Records L' c a) {p : PlayerId}
    (hp : p ∈ c.matchQueue.queue ∨ p ∈ c.roomManager.playerRoomMap) : p ∈ L'.matched :=
  hrec.matched (.inl (h.matched hp))

theorem wait (h : Queued c L) (hi : Introduced c L) (hw : WellBound c) (hf : Formed c)
    {p : PlayerId} (hp : 0 < p) (hq : p ∉ c.matchQueue.inQueue) (hallow : L.Allows c (.wait p))
    (hrec : L.Records L' c (.wait p)) : Queued { c with matchQueue := (c.popped p).2 } L' := by
  have hrest := (hf.popped hp hq).2.2.2
  constructor
  case queue => exact fun hx => h.joined hi hw hp hallow ((hrest _).1 hx).2
  case matched =>
    rintro x (hx | hx)
    · rcases ((hrest x).1 hx).2 with rfl | hx
      · exact hrec.matched (.inr rfl)
      · exact h.matched_of_records hrec (.inl hx)
    · exact h.matched_of_records hrec (.inr hx)

theorem room (h : Queued c L) (hi : Introduced c L) (hw : WellBound c) (hf : Formed c)
    {p : PlayerId} (hp : 0 < p) (hq : p ∉ c.matchQueue.inQueue)
    (hallow : L.Allows c (.room p (c.popped p).1))
    (hrec : L.Records L' c (.room p (c.popped p).1)) :
    Queued { c with
      matchQueue := (c.popped p).2
      roomManager := c.roomManager.insertRoom (c.popped p).1 } L' := by
  obtain ⟨-, hsub, -, hrest⟩ := hf.popped hp hq
  constructor
  case queue =>
    intro x hx
    obtain ⟨hout, hx⟩ := (hrest x).1 hx
    obtain ⟨hon, hmap⟩ := h.joined hi hw hp hallow hx
    exact ⟨hon, fun hin => ((Table.mem_insertNewAll ..).1 hin).elim hout hmap⟩
  case matched =>
    -- The popped players were queued before, or are the one who has just matched.
    have hqueue : ∀ x, x = p ∨ x ∈ c.matchQueue.queue → x ∈ L'.matched := by
      rintro x (rfl | hx)
      · exact hrec.matched (.inr rfl)
      · exact h.matched_of_records hrec (.inl hx)
    rintro x (hx | hx)
    · exact hqueue x ((hrest x).1 hx).2
    · rcases (Table.mem_insertNewAll ..).1 hx with hx | hx
      · exact hqueue x (hsub x hx).2
      · exact h.matched_of_records hrec (.inr hx)

theorem close (h : Queued c L) (hf : Formed c) {sid : SessionId} {ses : Session} {now : Time}
    {rm : RoomManager} (hrm : c.roomManager.mark ses.playerId .offline = .ok rm)
    (hrec : L.Records L' c (.close sid now)) :
    Queued { c with
      sessions := c.sessions.modify sid fun ses => { ses with closed := true }
      matchQueue := c.matchQueue.leave ses.playerId
      playerManager := c.playerManager.removePlayer ses.playerId
      connectionManager := c.connectionManager.removeSession sid
      playerStateManager := (c.playerStateManager.saveOnline ses.playerId
        (c.roomManager.getRoomIdByPlayer ses.playerId) ses.token).markDisconnected ses.playerId now
      roomManager := rm } L' := by
  have hmap := (RoomManager.playerRoomMap_mark hrm).1
  have hleave := hf.queue.mem_leave ses.playerId
  constructor
  case queue =>
    intro x hx
    obtain ⟨hne, hx⟩ := (hleave x).1 hx
    exact ⟨Finmap.mem_erase.2 ⟨hne, (h.queue hx).1⟩, hmap ▸ (h.queue hx).2⟩
  case matched =>
    intro x hx
    refine h.matched_of_records hrec (hx.imp (fun hx => ?_) fun hx => ?_)
    · exact ((hleave x).1 hx).2
    · exact hmap ▸ hx

theorem sweep (h : Queued c L) {ps : List PlayerId} {now : Time}
    (hfold : ps.foldlM Core.expire c = .ok c') (hrec : L.Records L' c (.sweep ps now)) :
    Queued c' L' := by
  have hmap := Core.mem_playerRoomMap_sweep hfold
  have hplayers : c'.playerManager = c.playerManager := by rw [Core.sweep_frame hfold]
  have hqueue : c'.matchQueue = c.matchQueue := by rw [Core.sweep_frame hfold]
  constructor
  case queue =>
    intro x hx
    rw [hqueue] at hx
    rw [hplayers, hmap]
    exact ⟨(h.queue hx).1, fun hin => (h.queue hx).2 hin.2⟩
  case matched =>
    intro x hx
    rw [hqueue, hmap] at hx
    exact h.matched_of_records hrec (hx.imp_right And.right)

theorem step {a : Act} (h : Queued c L) (hi : Introduced c L) (hw : WellBound c)
    (hf : Formed c) (hallow : L.Allows c a) (hrec : L.Records L' c a) (hs : CoreStep c a c') :
    Queued c' L' := by
  have hmatched := fun {p : PlayerId} => h.matched_of_records hrec (p := p)
  cases hs with
  | idle | accept _ | release _ _ _ => exact ⟨h.queue, hmatched⟩
  | login _ =>
    exact ⟨fun hp => ⟨Finmap.mem_insert.2 (.inr (h.queue hp).1), (h.queue hp).2⟩, hmatched⟩
  | wait hp hq _ => exact h.wait hi hw hf hp hq hallow hrec
  | room hp hq _ _ => exact h.room hi hw hf hp hq hallow hrec
  | resume _ _ hrm =>
    have hmap := (RoomManager.playerRoomMap_mark hrm).1
    constructor
    case queue =>
      intro x hx
      exact ⟨Finmap.mem_insert.2 (.inr (h.queue hx).1), hmap ▸ (h.queue hx).2⟩
    case matched => exact fun hx => hmatched (hmap ▸ hx)
  | close _ _ _ hrm => exact h.close hf hrm hrec
  | sweep _ _ hfold => exact h.sweep hfold hrec

end Queued

namespace Held

theorem init : Held {} {} where
  held h := absurd h Finmap.notMem_empty
  closed := fun ⟨_, h, _⟩ => by simp at h

theorem step {a : Act} (h : Held c L) (hrec : L.Records L' c a) (hs : CoreStep c a c') :
    Held c' L' := by
  have hclosed : ∀ {p t}, c.OfflineSince p t → t ∈ L'.closed :=
    fun ht => hrec.closed (.inl (h.closed ht))
  cases hs with
  | idle | accept _ | wait _ _ _ | room _ _ _ _ | release _ _ _ => exact ⟨h.held, hclosed⟩
  | login _ =>
    exact ⟨fun hp => (h.held hp).imp_right fun hp => Finmap.mem_insert.2 (.inr hp), hclosed⟩
  | @resume _ p _ _ _ _ _ _ =>
    constructor
    case held =>
      intro x hx
      rw [Core.offline_resume rfl]
      by_cases hxp : x = p
      · exact .inr (Finmap.mem_insert.2 (.inl hxp))
      · exact (h.held ((Table.mem_modify ..).1 hx)).imp (⟨hxp, ·⟩)
          fun hx => Finmap.mem_insert.2 (.inr hx)
    case closed =>
      intro x t ht
      exact hclosed ((Core.offlineSince_resume rfl x t).1 ht).2
  | @close _ ses _ _ _ _ _ _ =>
    constructor
    case held =>
      intro x hx
      rw [Core.offline_close rfl]
      rcases (PlayerStateManager.mem_disconnect ..).1 hx with hxp | hx
      · exact .inl (.inl hxp)
      · by_cases hxp : x = ses.playerId
        · exact .inl (.inl hxp)
        · exact (h.held hx).imp .inr fun hx => Finmap.mem_erase.2 ⟨hxp, hx⟩
    case closed =>
      intro x t ht
      rw [Core.offlineSince_close rfl] at ht
      split_ifs at ht
      · exact hrec.closed (.inr (ht ▸ rfl))
      · exact hclosed ht
  | sweep _ _ hfold =>
    have hplayers : c'.playerManager = c.playerManager := by rw [Core.sweep_frame hfold]
    constructor
    case held =>
      intro x hx
      obtain ⟨hps, hx⟩ := (Core.mem_states_sweep hfold x).1 hx
      rw [hplayers, Core.offline_sweep hfold]
      exact (h.held hx).imp_left (⟨hps, ·⟩)
    case closed =>
      intro x t ht
      exact hclosed ((Core.offlineSince_sweep hfold x t).1 ht).2

end Held

namespace Accounted

theorem init : Accounted {} {} where
  introduced := .init
  queued := .init
  members r room hr := by simp [RoomManager.getRoom] at hr
  held := .init

/-- **The invariant is kept by every step** that the clients' requests allow. -/
theorem step {a : Act} (h : Accounted c L) (hw : WellBound c) (hf : Formed c)
    (hallow : L.Allows c a) (hrec : L.Records L' c a) (hs : CoreStep c a c') :
    Accounted c' L' where
  introduced := h.introduced.step hw hallow hrec hs
  queued := h.queued.step h.introduced hw hf hallow hrec hs
  members := h.members.step hf (h.queued.roomsFresh h.introduced hw hf hallow hs) hs
  held := h.held.step hrec hs

/-- With every session closed, nobody is connected and nobody waits. -/
theorem drained (h : Accounted c L) (hc : ∀ sid, ¬ c.Open sid) :
    c.playerManager.players = ∅ ∧ c.matchQueue.queue = [] := by
  have hplayers : c.playerManager.players = ∅ := by
    refine Table.eq_empty_of_lookup fun p => ?_
    cases hp : c.playerManager.players.lookup p with
    | none => rfl
    | some sid => exact absurd (h.introduced.player hp).2.isOpen (hc sid)
  refine ⟨hplayers, List.eq_nil_iff_forall_not_mem.2 fun p hp => ?_⟩
  have hp := (h.queued.queue hp).1
  rw [hplayers] at hp
  exact Finmap.notMem_empty hp

/-- **A late sweep leaves nothing**, when nobody is connected: whatever is held then is
held for a player who has been `Offline` for long enough. -/
theorem swept (h : Accounted c L) (hlink : Linked c) (hf : Formed c)
    (hplayers : c.playerManager.players = ∅) {ps : List PlayerId} {now : Time}
    (hlate : ∀ t ∈ L.closed, t + 31 * 10 ^ 9 ≤ now) (hs : CoreStep c (.sweep ps now) c') :
    c'.roomManager.rooms = ∅ ∧ c'.roomManager.playerRoomMap = ∅ ∧
      c'.playerStateManager.states = ∅ := by
  obtain ⟨hmem, hfold⟩ := hs.of_sweep
  have hps : ∀ p, c.Offline p → p ∈ ps := by
    intro p hoff
    obtain ⟨t, ht⟩ := Core.offline_iff.1 hoff
    exact (hmem p).2 ⟨t, ht, lt_elapsedSeconds (hlate t (h.held.closed ht))⟩
  have hgone : ∀ p, p ∉ c.playerManager.players := fun p => hplayers ▸ Finmap.notMem_empty
  have hstates : c'.playerStateManager.states = ∅ := by
    refine Table.eq_empty_of_lookup fun p => (Table.not_mem_iff ..).1 ?_
    rw [Core.mem_states_sweep hfold]
    rintro ⟨hout, hin⟩
    exact hout (hps p ((h.held.held hin).resolve_right (hgone p)))
  have hmap : c'.roomManager.playerRoomMap = ∅ := by
    refine Table.eq_empty_of_lookup fun p => (Table.not_mem_iff ..).1 ?_
    rw [Core.mem_playerRoomMap_sweep hfold]
    rintro ⟨hout, hin⟩
    exact hout (hps p (hlink.offline hin (hgone p)))
  refine ⟨Table.eq_empty_of_lookup fun r => ?_, hmap, hstates⟩
  -- A room that is left has a member, who would still be mapped to it.
  cases hr : c'.roomManager.rooms.lookup r with
  | none => rfl
  | some o =>
    obtain ⟨room, rfl, hform⟩ := (hf.step hs).room hr
    obtain ⟨p, hp⟩ := List.exists_mem_of_ne_nil _ hform.ne_nil
    have hfresh : c.RoomsFresh (.sweep ps now) := trivial
    have hlk := h.members.step hf hfresh hs r room ((RoomManager.getRoom_eq_some ..).2 hr) p hp
    rw [hmap, Finmap.lookup_empty] at hlk
    cases hlk

/-- **The invariant holds throughout** a run of conforming clients. -/
theorem of_run {tr : History} {s : Server} (h : server.Run tr s) (hc : Conforms tr)
    (hl : tr.logins < 2 ^ 31 - 10000) : Accounted s.core (tr.ledger s) := by
  induction h with
  | nil =>
    have hnil : History.ledger [] server.init = {} := by
      simp [History.ledger, Server.issued, server]
    rw [hnil]
    exact .init
  | @cons tr s s' e hrun hs ih =>
    obtain ⟨hopen, hsends, hc⟩ := hc
    have hl : History.logins tr < 2 ^ 31 - 10000 :=
      lt_of_le_of_lt (logins_le_of_suffix (List.suffix_cons ..)) hl
    have hissued : ∀ x ∈ s.issued, x.2.1 ≠ 0 := by
      intro x hx h0
      have hle := (Server.issued_range hrun hl x hx).1
      rw [h0] at hle
      exact absurd hle (by decide)
    have hallow := Ledger.allows_of_sends hissued hs.1 hopen hsends
    exact (ih hc hl).step (WellBound.of_run hrun hl) (Formed.of_run hrun) hallow
      (History.records_ledger tr hs) (Server.step_core hs)

end Accounted

/-! ### Complete reclamation -/

/-- **Complete reclamation.**  In a run of conforming clients whose counters do not
wrap around, `PlayerManager` holds exactly the players bound to open sessions, the queue
holds only such players, and a room member is mapped to the room and is bound to an open
session or held `Offline`.  So once all sessions are closed nobody is online or waiting,
and a sweep 31 seconds after the last close leaves no room, no map entry and no runtime
state. -/
theorem reclamation {tr : History} {s : Server} (h : server.Run tr s) (hc : Conforms tr)
    (hl : tr.logins < 2 ^ 31 - 10000) (hr : tr.roomsCreated < 2 ^ 31 - 1) :
    (∀ p sid, s.playerManager.players.lookup p = some sid ↔ p ≠ 0 ∧ s.core.Bound sid p) ∧
    (∀ p, p ∈ s.matchQueue.queue ∨ p ∈ s.matchQueue.inQueue → ∃ sid, s.core.Bound sid p) ∧
    (∀ r room, s.roomManager.getRoom r = some room → ∀ p ∈ room.playerIds,
      s.roomManager.playerRoomMap.lookup p = some r ∧
        ((∃ sid, s.core.Bound sid p) ∨ s.core.Offline p)) ∧
    ((∀ sid, ¬ s.core.Open sid) →
      s.playerManager.onlineCount = 0 ∧ s.matchQueue.size = 0 ∧
      ∀ order now, s.playerStateManager.states.Enumerates order →
        (∀ x ∈ tr, ∀ t ∈ (x.1.act x.2).closedAt, t + 31 * 10 ^ 9 ≤ now.steady) →
        ∃ s', server.step s (.sweep order now) s' ∧ s'.roomManager.rooms = ∅ ∧
          s'.roomManager.playerRoomMap = ∅ ∧ s'.playerStateManager.states = ∅) := by
  have ha := Accounted.of_run h hc hl
  have hw := WellBound.of_run h hl
  have hf := Formed.of_run h
  have hlink := Linked.of_run h hl hr
  have hbound : ∀ p, p ∈ s.playerManager.players → ∃ sid, s.core.Bound sid p := by
    intro p hp
    obtain ⟨sid, hsid⟩ := Finmap.mem_iff.1 hp
    exact ⟨sid, (ha.introduced.player hsid).2⟩
  refine ⟨fun p sid => ⟨ha.introduced.player, fun h => hw.bound h.2 h.1⟩, fun p hp => ?_,
    fun r room hroom p hp => ?_, fun hclosed => ?_⟩
  · exact hbound p (ha.queued.queue (hp.elim id (hf.queue.mem_inQueue p).1)).1
  · have hmap := ha.members r room hroom p hp
    refine ⟨hmap, ?_⟩
    by_cases hon : p ∈ s.playerManager.players
    · exact .inl (hbound p hon)
    · exact .inr (hlink.offline (Finmap.mem_of_lookup_eq_some hmap) hon)
  · obtain ⟨hplayers, hqueue⟩ := ha.drained hclosed
    have hplayers : s.playerManager.players = ∅ := hplayers
    have hqueue : s.matchQueue.queue = [] := hqueue
    refine ⟨by rw [PlayerManager.onlineCount, hplayers, Table.size_empty],
      by rw [MatchQueue.size, hqueue, List.length_nil], fun order now horder hlate => ?_⟩
    obtain ⟨s', hs⟩ := hlink.step_sweep horder now
    refine ⟨s', hs, ha.swept hlink hf hplayers ?_ (Server.step_core hs)⟩
    rintro t ⟨x, hx, ht⟩
    exact hlate x hx t ht

/-- Two matched players who have both left, and the sweep after that. -/
theorem reclamation_left : ∃ s s' : Server, s.roomManager.rooms ≠ ∅ ∧
    s.playerManager.onlineCount = 0 ∧ server.step s (.sweep [10000, 10001] ⟨31 * 10 ^ 9, 0⟩) s' ∧
    s'.roomManager.rooms = ∅ ∧ s'.playerStateManager.states = ∅ := by
  obtain ⟨tr, s, h, hc, hl, hr, horder, hlate, hclosed, hroom⟩ := Server.exists_run
    (Q := fun tr s => Conforms tr ∧ tr.logins < 2 ^ 31 - 10000 ∧ tr.roomsCreated < 2 ^ 31 - 1 ∧
      s.playerStateManager.states.Enumerates [10000, 10001] ∧
      (∀ x ∈ tr, ∀ t ∈ (x.1.act x.2).closedAt, t + 31 * 10 ^ 9 ≤ 31 * 10 ^ 9) ∧
      (∀ sid ∈ s.sessions.keys, ¬ s.core.Open sid) ∧ (s.roomManager.getRoom 1).isSome)
    (Server.pairUp ++ [.close 0 {}, .close 1 {}]) (by decide +kernel)
  obtain ⟨-, -, -, hleft⟩ := reclamation h hc hl hr
  obtain ⟨honline, -, hsweep⟩ := hleft fun sid ⟨ses, hses, hopen⟩ =>
    hclosed sid (Finmap.mem_keys.2 (Finmap.mem_of_lookup_eq_some hses)) ⟨ses, hses, hopen⟩
  obtain ⟨s', hs, hrooms, -, hstates⟩ := hsweep [10000, 10001] ⟨31 * 10 ^ 9, 0⟩ horder hlate
  refine ⟨s, s', fun he => ?_, honline, hs, hrooms, hstates⟩
  rw [RoomManager.getRoom, he, Finmap.lookup_empty] at hroom
  cases hroom

end GameServer
