/-
# Integers in range

The ids, the scores and the counters of the server are `int`, and the model keeps them in ℤ,
with `toInt` where the source converts to `int` or an `int` may overflow.  `InRange` says that
this is faithful: every member that has an `int` holds a value of `int`, in every state of every
run (`inRange_of_run`), whatever the requests contain.

So a number in a message is a value of the type its field has in `proto/message.proto`, which is
what its serialisation needs (`wellFormed_of_sent`).  The times in a heartbeat's reply are an
`int64` of the request, given back, and a reading of the clock.
-/

import GameServer.Proto.Messages
import GameServer.Records
import GameServer.Replies

namespace GameServer

theorem isInt32_toInt (x : ℤ) : IsInt32 (toInt x) := toInt_mem x

theorem IsInt32.isInt64 {x : ℤ} (h : IsInt32 x) : IsInt64 x := by
  unfold IsInt32 at h
  unfold IsInt64
  omega

/-- The player id that an act is about is one that was converted to `int`. -/
def Act.InRange : Act → Prop
  | .wait p | .room p _ | .resume _ p _ => IsInt32 p
  | _ => True

/-- The ids in the core are values of `int`. -/
structure Core.InRange (c : Core) : Prop where
  nextPlayerId : IsInt32 c.nextPlayerId
  nextRoomId : IsInt32 c.roomManager.nextRoomId
  sessions : ∀ sid ses, c.sessions.lookup sid = some ses → IsInt32 ses.playerId
  queue : ∀ p ∈ c.matchQueue.queue, IsInt32 p
  rooms : ∀ r room, c.roomManager.rooms.lookup r = some (some room) → IsInt32 room.roomId
  mapped : ∀ p r, c.roomManager.playerRoomMap.lookup p = some r → IsInt32 r
  states : ∀ p st, c.playerStateManager.states.lookup p = some st → IsInt32 st.roomId

namespace Core.InRange

variable {c c' : Core}

theorem init : InRange {} where
  nextPlayerId := by decide
  nextRoomId := by decide
  sessions _ _ h := by cases h
  queue _ h := absurd h List.not_mem_nil
  rooms _ _ h := by cases h
  mapped _ _ h := by cases h
  states _ _ h := by cases h

/-- The players popped and those left waiting were waiting, or have just joined. -/
theorem popped (h : InRange c) {p : PlayerId} (hp : IsInt32 p) :
    (∀ q ∈ (c.popped p).1, IsInt32 q) ∧ ∀ q ∈ (c.popped p).2.queue, IsInt32 q := by
  have hall : ∀ q ∈ c.matchQueue.queue ++ [p], IsInt32 q := fun q hq => by
    rcases List.mem_append.1 hq with hq | hq
    · exact h.queue q hq
    · exact List.mem_singleton.1 hq ▸ hp
  have hjoin : (c.matchQueue.join p).queue = c.matchQueue.queue ++ [p] := rfl
  unfold Core.popped
  rcases MatchQueue.tryPop_two (c.matchQueue.join p) with ⟨-, heq⟩ | ⟨x, y, rest, hq, heq⟩ <;> rw [heq]
  · exact ⟨fun q hq => absurd hq List.not_mem_nil, fun q hq => hall q (hjoin ▸ hq)⟩
  · rw [← hjoin, hq] at hall
    refine ⟨fun q hq => hall q ?_, fun q hq => hall q (by simp [hq])⟩
    simp only [List.mem_cons, List.not_mem_nil, or_false] at hq ⊢
    tauto

theorem mark (h : InRange c) {p : PlayerId} {conn : PlayerConnState} {rm : RoomManager}
    (hrm : c.roomManager.mark p conn = .ok rm) : IsInt32 rm.nextRoomId ∧
      (∀ r room, rm.rooms.lookup r = some (some room) → IsInt32 room.roomId) ∧
      ∀ p r, rm.playerRoomMap.lookup p = some r → IsInt32 r := by
  obtain ⟨hmap, hnext⟩ := RoomManager.playerRoomMap_mark hrm
  rw [hmap, hnext]
  refine ⟨h.nextRoomId, fun r room hr => ?_, h.mapped⟩
  rcases RoomManager.exists_room_of_mark hrm hr with hr | ⟨room₀, hr₀, heq⟩
  · exact h.rooms r room hr
  · obtain rfl := Option.some.inj heq
    exact h.rooms r room₀ hr₀

theorem expire (h : InRange c) {p : PlayerId} (hexp : c.expire p = .ok c') : InRange c' := by
  obtain ⟨rm, hrm, rfl⟩ := Core.expire_ok hexp
  have hstates : ∀ q st, (c.playerStateManager.removePlayer p).states.lookup q = some st →
      IsInt32 st.roomId := fun q st hst => by
    rw [PlayerStateManager.lookup_removePlayer] at hst
    split_ifs at hst
    exact h.states q st hst
  have hrooms : ∀ r room, rm.rooms.lookup r = some (some room) → IsInt32 room.roomId := by
    intro r room hr
    rcases RoomManager.exists_room_of_removePlayer hrm hr with hr | ⟨room₀, hr₀, heq, -⟩
    · exact h.rooms r room hr
    · obtain rfl := Option.some.inj heq
      exact h.rooms r room₀ hr₀
  rcases RoomManager.removePlayer_ok hrm with ⟨-, rfl⟩ | ⟨r, room, -, -, hnext, hmap, -⟩
  · exact { h with states := hstates }
  · refine { h with nextRoomId := ?_, rooms := hrooms, mapped := fun q r hq => ?_, states := hstates }
    · show IsInt32 rm.nextRoomId
      rw [hnext]
      exact h.nextRoomId
    · have hq : rm.playerRoomMap.lookup q = some r := hq
      rw [hmap, Table.lookup_erase'] at hq
      split_ifs at hq
      exact h.mapped q r hq

/-- The states after the two calls of the close callback. -/
theorem disconnect (h : InRange c) (p : PlayerId) (token : Bytes) (now : Time) :
    ∀ q st, ((c.playerStateManager.saveOnline p (c.roomManager.getRoomIdByPlayer p)
      token).markDisconnected p now).states.lookup q = some st → IsInt32 st.roomId := by
  intro q st hst
  rw [PlayerStateManager.lookup_disconnect] at hst
  split_ifs at hst
  · rw [← Option.some.inj hst]
    cases hold : c.playerStateManager.states.lookup p with
    | some st₀ => exact h.states p st₀ hold
    | none =>
      show IsInt32 (c.roomManager.getRoomIdByPlayer p)
      unfold RoomManager.getRoomIdByPlayer
      cases hr : c.roomManager.playerRoomMap.lookup p with
      | none => decide
      | some r => exact h.mapped p r hr
  · exact h.states q st hst

/-- **The invariant is kept by every step of the core.** -/
theorem step {a : Act} (h : InRange c) (ha : a.InRange) (hs : CoreStep c a c') : InRange c' := by
  cases hs with
  | idle => exact h
  | accept _ =>
    refine { h with sessions := fun sid ses hses => ?_ }
    rcases Core.session_insert rfl hses with rfl | hses
    · decide
    · exact h.sessions sid ses hses
  | login _ =>
    refine { h with nextPlayerId := isInt32_toInt _, sessions := fun sid ses hses => ?_ }
    rcases Core.session_rebind rfl hses with ⟨hid, -⟩ | hses
    · exact hid ▸ h.nextPlayerId
    · exact h.sessions sid ses hses
  | wait _ _ _ => exact { h with queue := (h.popped ha).2 }
  | room _ _ _ _ =>
    refine { h with
      queue := (h.popped ha).2
      nextRoomId := isInt32_toInt _
      rooms := fun r room hr => ?_
      mapped := fun q r hq => ?_ }
    · rcases RoomManager.exists_room_of_insertRoom hr with hr | ⟨rfl, -, heq⟩
      · exact h.rooms r room hr
      · obtain rfl := Option.some.inj heq
        exact h.nextRoomId
    · rw [RoomManager.lookup_insertRoom_map] at hq
      split_ifs at hq
      · rw [← Option.some.inj hq]
        cases hold : c.roomManager.playerRoomMap.lookup q with
        | none => exact h.nextRoomId
        | some r₀ => exact h.mapped q r₀ hold
      · exact h.mapped q r hq
  | @resume _ p token st rm _ _ hrm =>
    obtain ⟨hnext, hrooms, hmapped⟩ := h.mark hrm
    refine { h with
      nextRoomId := hnext
      rooms := hrooms
      mapped := hmapped
      sessions := fun sid ses hses => ?_
      states := fun q st hst => ?_ }
    · rcases Core.session_rebind rfl hses with ⟨hid, -⟩ | hses
      · exact hid ▸ ha
      · exact h.sessions sid ses hses
    · rw [PlayerStateManager.lookup_markOnline] at hst
      split_ifs at hst
      · obtain ⟨st₀, hst₀, rfl⟩ := Option.map_eq_some_iff.1 hst
        exact h.states p st₀ hst₀
      · exact h.states q st hst
  | @close _ ses now rm hses _ _ hrm =>
    obtain ⟨hnext, hrooms, hmapped⟩ := h.mark hrm
    refine { h with
      nextRoomId := hnext
      rooms := hrooms
      mapped := hmapped
      sessions := fun sid ses hses => ?_
      queue := fun q hq => h.queue q ?_
      states := h.disconnect ses.playerId ses.token now }
    · obtain ⟨ses₀, hses₀, hid, -⟩ := Core.session_close rfl hses
      exact hid ▸ h.sessions sid ses₀ hses₀
    · have hq : q ∈ (c.matchQueue.leave ses.playerId).queue := hq
      unfold MatchQueue.leave at hq
      split_ifs at hq
      · exact List.mem_of_mem_erase hq
      · exact hq
  | release _ _ _ =>
    refine { h with sessions := fun sid ses hses => ?_ }
    obtain ⟨ses₀, hses₀, hid, -⟩ := Core.session_release rfl hses
    exact hid ▸ h.sessions sid ses₀ hses₀
  | sweep _ _ hfold => exact Core.sweep_induction hfold h fun hP _ hexp => hP.expire hexp

end Core.InRange
/-! ### The messages -/

/-- A message the server may send: its numbers are values of the types of their fields, and the
text in front of a token is ASCII. -/
def Response.WellFormed : Response → Prop
  | .loginResp r => IsInt64 r.code ∧ IsInt64 r.playerId ∧ ∀ c ∈ r.message, 0 ≤ c
  | .matchResp r => IsInt64 r.code
  | .roomCreatedNotify r => IsInt64 r.roomId ∧ ∀ p ∈ r.players, IsInt64 p
  | .chatNotify r => IsInt64 r.roomId ∧ IsInt64 r.playerId
  -- `send_chat_failed` is never called.
  | .chatResp _ => False
  | .heartbeatResp r => IsInt64 r.clientTimeMs ∧ IsInt64 r.serverTimeMs
  | .reconnectResp r => IsInt64 r.code ∧ IsInt32 r.playerId ∧ IsInt32 r.roomId
  | .rankingResp r => ∀ item ∈ r.items, IsInt64 item.playerId ∧ IsInt64 item.score

/-- The time in a heartbeat is an `int64`, and so is a reading of the clock. -/
def Event.InRange : Event → Prop
  | .request _ (.heartbeat req) now => IsInt64 req.clientTimeMs ∧ IsInt64 now.steady
  | _ => True

namespace Server

/-- The ids and the scores that the server keeps are values of `int`. -/
structure InRange (s : Server) : Prop where
  core : s.core.InRange
  records : ∀ p st, s.playerStateRepository.states.lookup p = some st →
    IsInt32 st.playerId ∧ IsInt32 st.score

variable {s s' : Server} {e : Event}

/-- An act converts the player ids of its request. -/
theorem act_inRange (s : Server) (e : Event) : (s.act e).InRange := by
  unfold act
  split
  all_goals try exact trivial
  · split_ifs <;> trivial
  · dsimp only
    split_ifs
    · trivial
    · trivial
    · exact isInt32_toInt _
    · exact isInt32_toInt _
  · split
    · trivial
    · split_ifs
      · trivial
      · trivial
      · exact isInt32_toInt _
  · split_ifs <;> trivial

theorem InRange.scored (h : s.InRange) (p : PlayerId) :
    ∀ q st, (s.scored p).states.lookup q = some st → IsInt32 st.playerId ∧ IsInt32 st.score := by
  intro q st hst
  unfold Server.scored RankingService.addScore at hst
  split at hst
  · rename_i st₀ hst₀
    have hst₀ : s.playerStateRepository.states.lookup p = some st₀ := hst₀
    dsimp only at hst
    rw [MemoryPlayerStateRepository.lookup_updateScore] at hst
    split_ifs at hst
    · rw [hst₀] at hst
      obtain rfl := Option.some.inj hst
      exact ⟨(h.records p st₀ hst₀).1, isInt32_toInt _⟩
    · exact h.records q st hst
  · exact h.records q st hst

/-- The records after a step. -/
theorem InRange.records_step (h : s.InRange) (hkeyed : s.playerStateRepository.Keyed)
    (hs : server.step s e s') : ∀ q st, s'.playerStateRepository.states.lookup q = some st →
      IsInt32 st.playerId ∧ IsInt32 st.score := by
  have hcase := handled_of_step hs.2
  generalize s.act e = a at hcase
  clear hs
  cases hcase with
  | @login sid req now hu =>
    intro q st hst
    have hst : (s.playerStateRepository.savePlayerState _).states.lookup q = some st := hst
    rw [MemoryPlayerStateRepository.savePlayerState, Table.lookup_insert'] at hst
    split_ifs at hst
    · rw [← Option.some.inj hst]
      exact ⟨h.core.nextPlayerId, (by decide : IsInt32 0)⟩
    · exact h.records q st hst
  | @room sid req now ps =>
    intro q st hst
    have hlk := (MemoryPlayerStateRepository.lookup_saveRoomId hkeyed s.roomManager.nextRoomId ps).2 q
    rw [hlk] at hst
    split_ifs at hst
    · obtain ⟨st₀, hst₀, rfl⟩ := Option.map_eq_some_iff.1 hst
      exact h.records q st₀ hst₀
    · exact h.records q st hst
  | chat => exact h.scored _
  | _ => exact h.records

theorem isInt64_tdiv {x : ℤ} (h : IsInt64 x) : IsInt64 (x.tdiv (10 ^ 6)) := by
  have habs : (x.tdiv (10 ^ 6)).natAbs = x.natAbs / 10 ^ 6 := Int.natAbs_tdiv x (10 ^ 6)
  unfold IsInt64 at h ⊢
  omega

/-- The players of a ranking have records. -/
theorem InRange.ranks (h : s.InRange) {players : List PlayerState}
    (hranks : RankingService.Ranks s players) :
    ∀ st ∈ players, IsInt32 st.playerId ∧ IsInt32 st.score := by
  obtain ⟨⟨all, ⟨order, -, rfl⟩, hperm⟩, -⟩ := hranks
  intro st hst
  obtain ⟨q, -, hq⟩ := List.mem_filterMap.1 (hperm.mem_iff.1 hst)
  exact h.records q st hq

theorem InRange.session (h : s.InRange) (sid : SessionId) : IsInt32 (s.session sid).playerId := by
  unfold Server.session
  cases hses : s.sessions.lookup sid with
  | none => decide
  | some ses => exact h.core.sessions sid ses hses

/-- The messages that a step sends. -/
theorem InRange.sent_step (h : s.InRange) (he : e.InRange) (hs : server.step s e s') :
    ∃ msgs, s'.sent = s.sent ++ msgs ∧ ∀ x ∈ msgs, x.2.WellFormed := by
  have hone : ∀ {sid : SessionId} {r : Response}, r.WellFormed → ∀ x ∈ [(sid, r)], x.2.WellFormed :=
    fun hr x hx => List.mem_singleton.1 hx ▸ hr
  have hcode : ∀ {x : ℤ}, x = 0 ∨ x = 1 → IsInt64 x := by
    rintro x (rfl | rfl) <;> decide
  have hsuccess : ∀ c ∈ ascii "login_success", 0 ≤ c := by decide +kernel
  have hen := hs.1
  have hcase := handled_of_step hs.2
  generalize s.act e = a at hcase
  clear hs
  cases hcase with
  | accept | closed | close | release | sweep | unregistered =>
    exact ⟨[], (List.append_nil _).symm, fun x hx => absurd hx List.not_mem_nil⟩
  | loginRefused hu => exact ⟨_, rfl, hone ⟨hcode (.inr rfl), hcode (.inl rfl), by decide +kernel⟩⟩
  | login hu => exact ⟨_, rfl, hone ⟨hcode (.inl rfl), h.core.nextPlayerId.isInt64, hsuccess⟩⟩
  | matchRefused href reason => exact ⟨_, rfl, hone (hcode (.inr rfl))⟩
  | wait hp hq hpop => exact ⟨_, rfl, hone (hcode (.inl rfl))⟩
  | @room sid req now ps hp hq hps hne hres =>
    refine ⟨_, List.append_assoc .., fun x hx => ?_⟩
    rcases List.mem_append.1 hx with hx | hx
    · rw [List.mem_singleton.1 hx]
      exact hcode (.inl rfl)
    · obtain ⟨p, -, rfl⟩ := List.mem_map.1 hx
      refine ⟨h.core.nextRoomId.isInt64, fun q hq => ?_⟩
      exact ((h.core.popped (isInt32_toInt _)).1 q (hps ▸ hq)).isInt64
  | @chat sid req now room hroom hres =>
    refine ⟨_, rfl, fun x hx => ?_⟩
    obtain ⟨p, -, rfl⟩ := List.mem_map.1 hx
    exact ⟨(h.core.rooms _ room ((RoomManager.getRoom_eq_some ..).1 hroom)).isInt64,
      (h.session sid).isInt64⟩
  | heartbeat sid req now => exact ⟨_, rfl, hone ⟨he.1, isInt64_tdiv he.2⟩⟩
  | @reconnectRefused sid req now hno reason =>
    exact ⟨_, rfl, hone ⟨hcode (.inr rfl), h.session sid, (by decide : IsInt32 0)⟩⟩
  | resume hst hrm =>
    exact ⟨_, rfl, hone ⟨hcode (.inl rfl), isInt32_toInt _, h.core.states _ _ hst.1⟩⟩
  | ranking sid req players now =>
    refine ⟨_, rfl, hone fun item hitem => ?_⟩
    dsimp only at hitem
    obtain ⟨st, hst, rfl⟩ := List.mem_map.1 hitem
    obtain ⟨hid, hscore⟩ := h.ranks hen.2 st (List.mem_of_mem_take hst)
    have hid64 : IsInt64 st.playerId := hid.isInt64
    exact ⟨hid64, hscore.isInt64⟩

/-- **The server never leaves the range of `int`**, -/
theorem inRange_of_run {tr : History} (h : server.Run tr s) : s.InRange := by
  induction h with
  | nil => exact ⟨.init, fun _ _ hst => by cases hst⟩
  | @cons tr s s' e hrun hs ih =>
    exact ⟨ih.core.step (act_inRange s e) (step_core hs), ih.records_step (keyed_of_run hrun) hs⟩

/-- **and what it sends is well formed**, when the times it is given are values of `int64`. -/
theorem wellFormed_of_sent {tr : History} (h : server.Run tr s) (he : ∀ x ∈ tr, x.2.InRange) :
    ∀ x ∈ s.sent, x.2.WellFormed := by
  induction h with
  | nil => exact fun x hx => absurd hx List.not_mem_nil
  | @cons tr s s' e hrun hs ih =>
    rw [List.forall_mem_cons] at he
    obtain ⟨msgs, heq, hmsgs⟩ := (inRange_of_run hrun).sent_step he.1 hs
    intro x hx
    rw [heq, List.mem_append] at hx
    rcases hx with hx | hx
    · exact ih he.2 x hx
    · exact hmsgs x hx

end Server
end GameServer
