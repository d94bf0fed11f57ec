/-
# The server of the benchmark

What each handler makes of a server that is described by some orders (`ServerAt`): a
login, a request to be matched and a chat change the orders in one place and send what the
client is then told.  No handler fails.
-/

import GameServer.BenchmarkOrders
import GameServer.Formation
import GameServer.Records

namespace GameServer

variable {p : SessionId → ℤ} {o : Orders} {n : ℕ}

/-! ### What the server does -/

namespace ServerAt

variable {s s' : Server} {i : SessionId} {now : Instant}

theorem init (p : SessionId → ℤ) : ServerAt p {} {} where
  next := rfl
  session h := by simp at h
  accepted h := absurd h List.not_mem_nil
  player h := absurd h List.not_mem_nil
  states := rfl
  queue := rfl
  nextRoom := rfl
  room h := by simp at h
  noRoom h := absurd h Finmap.notMem_empty
  score h := absurd h List.not_mem_nil
  recv := rfl
  send := rfl

/-- Different clients have different ids. -/
theorem inj (h : ServerAt p o s) {j : SessionId} (hi : i ∈ o.logins) (hj : j ∈ o.logins)
    (hij : p i = p j) : i = j := by
  have hlk := h.player hi
  rw [hij, h.player hj] at hlk
  exact (Option.some.inj hlk).symm

/-- A client that has logged in resolves. -/
theorem resolves (h : ServerAt p o s) (hi : i ∈ o.logins) :
    s.core.Resolves (p i) ∧ s.sessionOf (p i) = i := by
  obtain ⟨ses, hses⟩ := Finmap.mem_iff.1 (h.accepted hi)
  refine ⟨⟨i, h.player hi, ses, hses, (h.session hses).1⟩, ?_⟩
  rw [Server.sessionOf, h.player hi, Option.getD_some]

theorem playerId (h : ServerAt p o s) (hi : i ∈ o.logins) : (s.session i).playerId = p i := by
  obtain ⟨ses, hses⟩ := Finmap.mem_iff.1 (h.accepted hi)
  rw [Server.session, hses, Option.getD_some, (h.session hses).2, if_pos hi]

theorem accept (h : ServerAt p o s) (hs : server.step s (.accept i now) s') :
    ServerAt p o s' ∧ s'.sent = s.sent := by
  obtain ⟨hnew, hs⟩ := hs
  obtain rfl := Except.ok.inj hs
  have hnew : i ∉ s.sessions := hnew
  refine ⟨{ h with session := ?_, accepted := ?_ }, rfl⟩
  · intro j ses hses
    have hses : (s.sessions.insert i {}).lookup j = some ses := hses
    rw [Table.lookup_insert'] at hses
    split_ifs at hses with hj
    · obtain rfl := Option.some.inj hses
      refine ⟨rfl, (if_neg fun hmem => hnew ?_).symm⟩
      exact hj ▸ h.accepted hmem
    · exact h.session hses
  · intro j hj
    exact Finmap.mem_insert.2 (.inr (h.accepted hj))

/-- Nobody is held `Offline`, so the reconnect check removes nobody. -/
theorem sweep {order : List PlayerId} (h : ServerAt p o s)
    (hs : server.step s (.sweep order now) s') : s' = s := by
  obtain ⟨horder, hs⟩ := hs
  have horder : s.playerStateManager.states.Enumerates order := horder
  have hnil : order = [] := by
    rw [h.states] at horder
    refine List.eq_nil_iff_forall_not_mem.2 fun q hq => ?_
    exact absurd ((horder.mem_iff q).1 hq) Finmap.notMem_empty
  subst hnil
  exact (Except.ok.inj hs).symm

/-- The counters after a request that was answered with `k` messages. -/
theorem counters (h : ServerAt p o s) {m : ServerMetrics}
    (hrecv : m.totalRecvPackets = toInt (s.metrics.totalRecvPackets + 1))
    (hsend : m.totalSendPackets = s.metrics.totalSendPackets) (k : ℕ)
    (hr : o.logins.length + o.asked.length + o.chats.length + 1 < 2 ^ 31)
    (hs : o.logins.length + o.asked.length + 2 * o.rooms.length + 2 * o.chats.length + k < 2 ^ 31) :
    (ServerMetrics.incrSendPacket^[k] m).totalRecvPackets =
        o.logins.length + o.asked.length + o.chats.length + 1 ∧
      (ServerMetrics.incrSendPacket^[k] m).totalSendPackets =
        o.logins.length + o.asked.length + 2 * o.rooms.length + 2 * o.chats.length + k := by
  rw [h.send] at hsend
  rw [h.recv, toInt_of_lt (by omega) (by omega)] at hrecv
  obtain ⟨hsend', hrecv'⟩ := ServerMetrics.iterate_incrSendPacket m k (by omega) (by omega)
  omega

/-- **A login** draws the next id. -/
theorem login (h : ServerAt p o s) (hv : o.Valid n) (hn : 2 * n + 6 * (n / 2) < 2 ^ 31)
    (hp : Assigns p (o.login i).logins) (hi : i < n) (hnew : i ∉ o.logins)
    (hs : server.step s (.request i ClientSimulator.login now) s') :
    ServerAt p (o.login i) s' ∧ s'.sent = s.sent ++ [(i, loginOk p i)] := by
  obtain ⟨⟨halive, -⟩, hs⟩ := hs
  obtain rfl := Except.ok.inj hs
  have hlast : s.nextPlayerId = p i := h.next.trans hp.last.symm
  obtain ⟨hlogins, -, hrecv, hsend⟩ := (hv.login hi hnew).inRange hn
  have hlen : (o.login i).logins.length = o.logins.length + 1 := List.length_append
  have hsame : (o.login i).asked.length = o.asked.length ∧ (o.login i).rooms.length = o.rooms.length ∧
      (o.login i).chats.length = o.chats.length := ⟨rfl, rfl, rfl⟩
  have hcount := h.counters (m := (s.metrics.incrRecvPacket).incrLoginReq) rfl rfl 1 (by omega)
    (by omega)
  have hmem : ∀ j, j ∈ (o.login i).logins ↔ j ∈ o.logins ∨ j = i := fun j => by
    rw [Orders.login, List.mem_append, List.mem_singleton]
  have hne : ∀ {j}, j ∈ o.logins → p j ≠ s.nextPlayerId := fun {j} hj => by
    have := (hp.of_login.range hj).2
    have := h.next
    omega
  refine ⟨{ h with
    next := ?_
    session := ?_
    accepted := ?_
    player := ?_
    score := ?_
    recv := hcount.1.trans (by omega)
    send := hcount.2.trans (by omega) }, ?_⟩
  · show toInt (s.nextPlayerId + 1) = _
    rw [h.next, toInt_of_lt (by omega) (by omega)]
    omega
  · intro j ses hses
    have hses : (s.sessions.modify i fun ses => { ses with
      playerId := s.nextPlayerId
      token := LoginService.generateToken s.nextPlayerId }).lookup j = some ses := hses
    rw [Table.lookup_modify] at hses
    split_ifs at hses with hj
    · obtain ⟨ses₀, hses₀, rfl⟩ := Option.map_eq_some_iff.1 hses
      rw [if_pos ((hmem j).2 (.inr hj)), hj]
      exact ⟨(h.session hses₀).1, hlast⟩
    · obtain ⟨hal, hid⟩ := h.session hses
      refine ⟨hal, hid.trans ?_⟩
      simp only [hmem, hj, or_false]
  · intro j hj
    refine (Table.mem_modify ..).2 ?_
    rcases (hmem j).1 hj with hj | rfl
    · exact h.accepted hj
    · obtain ⟨ses, hses, -⟩ := (s.alive_iff j).1 halive
      exact Finmap.mem_of_lookup_eq_some hses
  · intro j hj
    show (s.playerManager.players.insert s.nextPlayerId i).lookup (p j) = some j
    rw [Table.lookup_insert']
    rcases (hmem j).1 hj with hj | rfl
    · rw [if_neg (hne hj), h.player hj]
    · rw [if_pos hlast.symm]
  · intro j hj
    show (Finmap.lookup (p j) (s.playerStateRepository.states.insert s.nextPlayerId _)).map _ = _
    rw [Table.lookup_insert']
    rcases (hmem j).1 hj with hj | rfl
    · rw [if_neg (hne hj)]
      exact h.score hj
    · have hchat : j ∉ (o.login j).chats := fun hc =>
        hnew (hv.asked_sub (List.mem_append_left _ (hv.chats_sub hc)))
      rw [if_pos hlast.symm, if_neg hchat]
      rfl
  · show s.sent ++ [(i, Response.loginResp _)] = _
    rw [loginOk, ← hlast]
    rfl

/-- The waiting client, if there is one, is popped together with the one who asks. -/
theorem popped (h : ServerAt p o s) (i : SessionId) :
    (o.waiting = none ∧ (s.core.popped (p i)).1 = [] ∧ (s.core.popped (p i)).2.queue = [p i]) ∨
      ∃ j, o.waiting = some j ∧ (s.core.popped (p i)).1 = [p j, p i] ∧
        (s.core.popped (p i)).2.queue = [] := by
  have hqueue : (s.core.matchQueue.join (p i)).queue = (o.waiting.map p).toList ++ [p i] := by
    show s.matchQueue.queue ++ [p i] = _
    rw [h.queue]
  rw [Core.popped]
  rcases MatchQueue.tryPop_two (s.core.matchQueue.join (p i)) with
    ⟨hlt, heq⟩ | ⟨x, y, rest, hxy, heq⟩
  · rw [hqueue] at hlt
    rw [heq]
    cases hw : o.waiting with
    | none => exact .inl ⟨rfl, rfl, by rw [hqueue, hw]; rfl⟩
    | some j =>
      rw [hw] at hlt
      exact absurd hlt (by simp)
  · rw [hqueue] at hxy
    rw [heq]
    cases hw : o.waiting with
    | none =>
      rw [hw] at hxy
      cases hxy
    | some j =>
      rw [hw] at hxy
      cases hxy
      exact .inr ⟨j, rfl, rfl, rfl⟩

/-- The id that a client asks with is not refused. -/
theorem not_refused (h : ServerAt p o s) (hf : Formed s.core) (hv : o.Valid n)
    (hp : Assigns p o.logins) (hi : i ∈ o.logins) (hnew : i ∉ o.asked) :
    ¬ (p i ≤ 0 ∨ p i ∈ s.matchQueue.inQueue) := by
  rintro (hle | hmem)
  · have := (hp.range hi).1
    omega
  · have hmem : p i ∈ s.matchQueue.queue := (hf.queue.mem_inQueue (p i)).1 hmem
    rw [h.queue] at hmem
    cases hw : o.waiting with
    | none =>
      rw [hw] at hmem
      cases hmem
    | some j =>
      rw [hw] at hmem
      have hj : j ∈ o.asked := by
        rw [Orders.asked, hw]
        exact List.mem_append_right _ (List.mem_singleton_self j)
      exact hnew (h.inj hi (hv.asked_sub hj) (List.mem_singleton.1 hmem) ▸ hj)

/-- **A MatchReq that finds nobody** lets its client wait. -/
theorem wait (h : ServerAt p o s) (hv : (o.ask i).Valid n) (hn : 2 * n + 6 * (n / 2) < 2 ^ 31)
    (hw : o.waiting = none)
    (hs : s' = { MatchService.sendMatchSuccess { s.received i now with
      metrics := (s.received i now).metrics.incrMatchReq } i with
        matchQueue := (s.core.popped (p i)).2 })
    (hqueue : (s.core.popped (p i)).2.queue = [p i]) :
    ServerAt p (o.ask i) s' ∧ s'.sent = s.sent ++ [(i, matchOk)] := by
  obtain ⟨-, -, hrecv, hsend⟩ := hv.inRange hn
  have hasked : (o.ask i).asked.length = o.asked.length + 1 := by
    rw [Orders.asked_ask, List.length_append, List.length_singleton]
  have hask : o.ask i = { o with waiting := some i } := by rw [Orders.ask, hw]
  rw [hask] at hrecv hsend hasked ⊢
  dsimp only at hrecv hsend
  have hcount := h.counters (m := (s.metrics.incrRecvPacket).incrMatchReq) rfl rfl 1 (by omega)
    (by omega)
  subst hs
  refine ⟨{ h with queue := hqueue, recv := ?_, send := ?_ }, rfl⟩
  · refine hcount.1.trans ?_
    dsimp only
    omega
  · refine hcount.2.trans ?_
    dsimp only
    omega

/-- The rooms after one more was made. -/
theorem lookup_room (h : ServerAt p o s) {j k : ℕ} {a b : SessionId}
    (hk : (o.rooms ++ [(j, i)])[k]? = some (a, b)) :
    (s.roomManager.insertRoom [p j, p i]).rooms.lookup (1 + (k : ℤ)) =
      some (some (Room.new (1 + (k : ℤ)) [p a, p b])) := by
  have hfree : s.roomManager.rooms.lookup s.roomManager.nextRoomId = none := by
    refine (Table.not_mem_iff ..).1 fun hmem => ?_
    obtain ⟨k, hk, he⟩ := h.noRoom hmem
    have he : (1 : ℤ) + o.rooms.length = 1 + k := h.nextRoom.symm.trans he
    omega
  rw [RoomManager.lookup_insertRoom hfree, h.nextRoom]
  rcases Nat.lt_or_ge k o.rooms.length with hlt | hge
  · rw [List.getElem?_append_left hlt] at hk
    have hne : ¬ (1 : ℤ) + k = 1 + o.rooms.length := by omega
    rw [if_neg hne]
    exact h.room hk
  · have hk' := (List.getElem?_eq_some_iff.1 hk).1
    rw [List.length_append, List.length_singleton] at hk'
    obtain rfl : k = o.rooms.length := by omega
    rw [List.getElem?_concat_length] at hk
    cases hk
    rw [if_pos rfl]

/-- **A MatchReq that finds `j` waiting** gives both a room. -/
theorem pair (h : ServerAt p o s) (hkeyed : s.playerStateRepository.Keyed)
    (hv : (o.ask i).Valid n) (hn : 2 * n + 6 * (n / 2) < 2 ^ 31) {j : SessionId}
    (hi : i ∈ o.logins) (hj : j ∈ o.logins) (hw : o.waiting = some j)
    (hs : s' = { (MatchService.sendMatchSuccess { s.received i now with
      metrics := (s.received i now).metrics.incrMatchReq } i).sendEach
        ([p j, p i].map fun x => (s.sessionOf x, .roomCreatedNotify
          { roomId := s.roomManager.nextRoomId, players := [p j, p i] })) with
      matchQueue := (s.core.popped (p i)).2
      roomManager := s.roomManager.insertRoom [p j, p i]
      playerStateRepository := Server.saveRoomId s.playerStateRepository
        s.roomManager.nextRoomId [p j, p i] })
    (hqueue : (s.core.popped (p i)).2.queue = []) :
    ServerAt p (o.ask i) s' ∧ s'.sent = s.sent ++ [(i, matchOk), (j, roomOk p o.rooms.length j i),
      (i, roomOk p o.rooms.length j i)] := by
  obtain ⟨-, hrooms, hrecv, hsend⟩ := hv.inRange hn
  have hasked : (o.ask i).asked.length = o.asked.length + 1 := by
    rw [Orders.asked_ask, List.length_append, List.length_singleton]
  have hask : o.ask i = { o with rooms := o.rooms ++ [(j, i)], waiting := none } := by
    rw [Orders.ask, hw]
  rw [hask] at hrooms hrecv hsend hasked ⊢
  rw [List.length_append, List.length_singleton] at hrooms hsend
  dsimp only at hrecv hsend
  have hcount := h.counters (m := (s.metrics.incrRecvPacket).incrMatchReq) rfl rfl 3 (by omega)
    (by omega)
  subst hs
  refine ⟨{ h with
    queue := hqueue
    nextRoom := ?_
    room := fun hk => h.lookup_room hk
    noRoom := ?_
    score := ?_
    recv := ?_
    send := ?_ }, ?_⟩
  · show toInt (s.roomManager.nextRoomId + 1) = _
    rw [h.nextRoom, toInt_of_lt (by omega) (by omega), List.length_append, List.length_singleton]
    omega
  · intro r hr
    rw [List.length_append, List.length_singleton]
    rcases (Table.mem_insertNew ..).1 hr with rfl | hr
    · exact ⟨o.rooms.length, by omega, h.nextRoom⟩
    · obtain ⟨k, hk, he⟩ := h.noRoom hr
      exact ⟨k, by omega, he⟩
  · intro m hm
    show ((Server.saveRoomId s.playerStateRepository s.roomManager.nextRoomId
      [p j, p i]).states.lookup (p m)).map _ = _
    rw [(MemoryPlayerStateRepository.lookup_saveRoomId hkeyed _ _).2]
    by_cases hmem : p m ∈ [p j, p i]
    · rw [if_pos hmem, Option.map_map]
      exact h.score hm
    · rw [if_neg hmem]
      exact h.score hm
  · refine hcount.1.trans ?_
    dsimp only
    omega
  · refine hcount.2.trans ?_
    dsimp only
    rw [List.length_append, List.length_singleton]
    omega
  · show s.sent ++ [(i, matchOk)] ++ [p j, p i].map (fun x => (s.sessionOf x, _)) = _
    rw [h.nextRoom, List.append_assoc]
    simp only [List.map_cons, List.map_nil, (h.resolves hj).2, (h.resolves hi).2]
    rfl

/-- **A MatchReq** lets its client wait, or gives it a room with the one who waits. -/
theorem ask (h : ServerAt p o s) (hf : Formed s.core) (hkeyed : s.playerStateRepository.Keyed)
    (hv : o.Valid n) (hn : 2 * n + 6 * (n / 2) < 2 ^ 31) (hp : Assigns p o.logins)
    (hi : i ∈ o.logins) (hnew : i ∉ o.asked)
    (hs : server.step s (.request i (.match { playerId := p i }) now) s') :
    ServerAt p (o.ask i) s' ∧ s'.sent = s.sent ++ (i, matchOk) :: (o.waiting.map fun j =>
      [(j, roomOk p o.rooms.length j i), (i, roomOk p o.rooms.length j i)]).getD [] := by
  have hs : MatchService.handleMatch (s.received i now) i { playerId := p i } = .ok s' := hs.2
  have hv' := hv.ask hi hnew
  rcases Server.handleMatch_ok (toInt_id hp hv hn hi) hs with ⟨href, -⟩ | ⟨-, -, hcase⟩
  · exact absurd href (h.not_refused hf hv hp hi hnew)
  rcases h.popped i with ⟨hw, hpop, hqueue⟩ | ⟨j, hw, hpop, hqueue⟩
  · rw [hw]
    rcases hcase with ⟨-, hs'⟩ | ⟨hne, -⟩
    · exact h.wait hv' hn hw hs' hqueue
    · exact absurd hpop hne
  · rw [hw]
    have hj : j ∈ o.logins := hv.asked_sub (List.mem_append_right _ (by simp [hw]))
    have hpop' : ((s.received i now).core.popped (p i)).1 = [p j, p i] := hpop
    rcases hcase with ⟨hnil, -⟩ | ⟨-, -, hs'⟩
    · rw [hpop'] at hnil
      cases hnil
    · rw [hpop'] at hs'
      exact h.pair hkeyed hv' hn hi hj hw hs' hqueue

/-- The room that a client names is its own. -/
theorem named (h : ServerAt p o s) (hv : o.Valid n) (hn : 2 * n + 6 * (n / 2) < 2 ^ 31) {k : ℕ}
    {a b : SessionId} (hk : o.rooms[k]? = some (a, b)) :
    s.roomManager.getRoom (toInt (1 + (k : ℤ))) = some (Room.new (1 + (k : ℤ)) [p a, p b]) := by
  have hlt := (List.getElem?_eq_some_iff.1 hk).1
  have := (hv.inRange hn).2.1
  rw [toInt_of_lt (by omega) (by omega)]
  exact (RoomManager.getRoom_eq_some ..).2 (h.room hk)

/-- The scores after a chat of a client that has not chatted. -/
theorem score_chat (h : ServerAt p o s) (hi : i ∈ o.logins) (hnew : i ∉ o.chats) {j : SessionId}
    (hj : j ∈ o.logins) : ((s.scored (p i)).loadPlayerState (p j)).map PlayerState.score =
      some (if j ∈ (o.chat i).chats then 1 else 0) := by
  obtain ⟨st, hst, hscore⟩ := Option.map_eq_some_iff.1 (h.score hi)
  rw [if_neg hnew] at hscore
  have hscored : s.scored (p i) = s.playerStateRepository.updateScore (p i) 1 := by
    rw [Server.scored, RankingService.addScore, hst]
    show MemoryPlayerStateRepository.updateScore _ (p i) (toInt (st.score + 1)) = _
    rw [hscore]
    rfl
  rw [hscored, MemoryPlayerStateRepository.loadPlayerState,
    MemoryPlayerStateRepository.lookup_updateScore]
  by_cases hji : j = i
  · subst hji
    have hst : s.playerStateRepository.states.lookup (p j) = some st := hst
    have hlast : j ∈ (o.chat j).chats := List.mem_append_right _ (List.mem_singleton_self j)
    rw [if_pos rfl, hst, if_pos hlast]
    rfl
  · have hmem : j ∈ (o.chat i).chats ↔ j ∈ o.chats := by
      rw [Orders.chat, List.mem_append, List.mem_singleton, or_iff_left hji]
    rw [if_neg fun e => hji (h.inj hj hi e)]
    simp only [hmem]
    exact h.score hj

/-- **A ChatReq** notifies both clients of the room, and its client scores. -/
theorem chat (h : ServerAt p o s) (hv : o.Valid n) (hn : 2 * n + 6 * (n / 2) < 2 ^ 31) {k : ℕ}
    {a b : SessionId} (hk : o.rooms[k]? = some (a, b)) (hi : i = a ∨ i = b) (hnew : i ∉ o.chats)
    (hs : server.step s (.request i (.chat { roomId := 1 + k, text := helloText p i }) now) s') :
    ServerAt p (o.chat i) s' ∧ s'.sent = s.sent ++ [(a, hello p k i), (b, hello p k i)] := by
  have hs : ChatService.handleChat (s.received i now) i { roomId := 1 + k, text := helloText p i } =
      .ok s' := hs.2
  obtain ⟨ha, hb⟩ := hv.mem_logins_of_room hk
  have hi' : i ∈ o.logins := hi.elim (fun e => e ▸ ha) fun e => e ▸ hb
  obtain ⟨room, hroom, -, hs'⟩ := Server.handleChat_ok hs
  obtain rfl := Option.some.inj ((h.named hv hn hk).symm.trans hroom)
  have hid : ((s.received i now).session i).playerId = p i := h.playerId hi'
  have hscored : (s.received i now).scored (p i) = s.scored (p i) := Server.scored_congr (by rfl) _
  rw [hid, hscored] at hs'
  have hseated : i ∈ o.seated := Orders.mem_seated.2 ⟨k, a, b, hk, hi⟩
  obtain ⟨-, -, hrecv, hsend⟩ := (hv.chat hseated hnew).inRange hn
  have hlen : (o.chat i).chats.length = o.chats.length + 1 := List.length_append
  have hsame : (o.chat i).asked.length = o.asked.length ∧ (o.chat i).rooms.length = o.rooms.length ∧
      (o.chat i).logins.length = o.logins.length := ⟨rfl, rfl, rfl⟩
  have hcount := h.counters (m := (s.metrics.incrRecvPacket).incrChatReq) rfl rfl 2 (by omega)
    (by omega)
  have hsent : s'.sent = s.sent ++ [p a, p b].map fun x => (s.sessionOf x, hello p k i) := by
    rw [hs']
    rfl
  subst hs'
  refine ⟨{ h with
    score := fun hj => h.score_chat hi' hnew hj
    recv := hcount.1.trans (by omega)
    send := hcount.2.trans (by omega) }, ?_⟩
  rw [hsent]
  simp only [List.map_cons, List.map_nil, (h.resolves ha).2, (h.resolves hb).2]

/-- **No request of a client fails.** -/
theorem returns (h : ServerAt p o s) (hv : o.Valid n) (hn : 2 * n + 6 * (n / 2) < 2 ^ 31)
    (hp : Assigns p o.logins) {c : Endpoint} {msgs : List Response} (hc : Stage p o i c msgs)
    {req : Request} {rest : List Request} (hup : c.up = req :: rest) (halive : s.alive i) :
    ∃ s', server.step s (.request i req now) s' := by
  have hnil : c.up ≠ [] := by
    rw [hup]
    exact List.cons_ne_nil _ _
  cases hc with
  | away _ hc => exact absurd (hc ▸ rfl) hnil
  | calling _ _ hup' =>
    obtain rfl := (List.cons.inj (hup.symm.trans hup')).1
    exact ⟨_, ⟨halive, trivial⟩, rfl⟩
  | asking hi _ _ _ hup' =>
    obtain rfl := (List.cons.inj (hup.symm.trans hup')).1
    obtain ⟨s', hs'⟩ := Server.handleMatch_of_resolves (s := s.received i now) i
      (toInt_id hp hv hn hi) fun _ _ x hx => by
        have hx : x ∈ (s.core.popped (p i)).1 := hx
        rcases h.popped i with ⟨-, hpop, -⟩ | ⟨j, hw, hpop, -⟩
        · rw [hpop] at hx
          cases hx
        · rw [hpop, List.mem_cons, List.mem_singleton] at hx
          rcases hx with rfl | rfl
          · have hj : j ∈ o.logins := hv.asked_sub (List.mem_append_right _ (by simp [hw]))
            exact (h.resolves hj).1
          · exact (h.resolves hi).1
    exact ⟨s', ⟨halive, trivial⟩, hs'⟩
  | told k a b hk hi _ _ _ hup' =>
    obtain rfl := (List.cons.inj (hup.symm.trans hup')).1
    obtain ⟨ha, hb⟩ := hv.mem_logins_of_room hk
    let req : ChatReq := { roomId := 1 + k, text := helloText p i }
    have hnamed : (s.received i now).roomManager.getRoom (toInt req.roomId) = some _ :=
      h.named hv hn hk
    obtain ⟨s', hs'⟩ := Server.handleChat_of_resolves i hnamed fun x hx => by
      have hx : x ∈ [p a, p b] := hx
      rw [List.mem_cons, List.mem_singleton] at hx
      rcases hx with rfl | rfl
      · exact (h.resolves ha).1
      · exact (h.resolves hb).1
    exact ⟨s', ⟨halive, trivial⟩, hs'⟩
  | greeted _ _ _ hup' => exact absurd hup' hnil
  | waiting _ _ _ hup' => exact absurd hup' hnil
  | seated _ _ _ _ _ _ _ _ hup' => exact absurd hup' hnil
  | chatted _ _ _ _ _ _ _ _ hup' => exact absurd hup' hnil

end ServerAt

end GameServer
