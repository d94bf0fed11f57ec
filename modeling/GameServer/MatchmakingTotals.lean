/-
# What `n` clients add up to

When nothing is in flight, every client waits or has chatted, so the orders hold all `n`
clients: `n / 2` rooms of two, `n % 2` who wait, and a chat from everybody who has a room.
The totals of the benchmark report (50 clients: 25 rooms, 150 packets received, 250 sent)
are this count, for every number of clients and every order of their messages
(`matchmaking_totals`).
-/

import GameServer.BenchmarkClients

namespace GameServer

/-- A player of room `r`. -/
def Server.InRoom (s : Server) (q : PlayerId) (r : RoomId) : Prop :=
  ∃ room, s.roomManager.getRoom r = some room ∧ q ∈ room.playerIds

/-- How many messages under `msgId` a client has read. -/
def Endpoint.readCount (c : Endpoint) (msgId : UInt16) : ℕ :=
  c.received.countP fun msg => msg.msgId = msgId

/-- The player of client `i`. -/
def Bench.playerOf (s : Bench) (i : SessionId) : PlayerId := (s.server.session i).playerId

/-- What `n` clients should add up to, where `matched` are the players whose MatchReq was
handled, in that order. -/
structure Bench.Totals (s : Bench) (n : ℕ) (matched : List PlayerId) : Prop where
  rooms : s.server.roomManager.roomCount = n / 2
  queued : s.server.matchQueue.queue.length = n % 2
  distinct : ∀ i < n, ∀ j < n, s.playerOf i = s.playerOf j → i = j
  placed : ∀ i < n,
    s.playerOf i ∈ s.server.matchQueue.queue ∧ (∀ r, ¬ s.server.InRoom (s.playerOf i) r) ∨
    s.playerOf i ∉ s.server.matchQueue.queue ∧ ∃! r, s.server.InRoom (s.playerOf i) r
  pair : ∀ {r room}, s.server.roomManager.getRoom r = some room →
    ∃ i < n, ∃ j < n, i ≠ j ∧ room.playerIds = [s.playerOf i, s.playerOf j]
  /-- Room `1 + k` holds the next two players. -/
  room : ∀ k < n / 2, ∃ a b room, matched[2 * k]? = some a ∧ matched[2 * k + 1]? = some b ∧
    s.server.roomManager.getRoom (1 + (k : ℤ)) = some room ∧ room.playerIds = [a, b]
  roomed : ∀ i < n, ∀ {r}, s.server.InRoom (s.playerOf i) r →
    (s.client i).readCount MessageId.RoomCreatedNotify = 1 ∧
    (s.client i).readCount MessageId.ChatNotify = 2 ∧
    (s.server.playerStateRepository.loadPlayerState (s.playerOf i)).map PlayerState.score = some 1
  recv : s.server.metrics.totalRecvPackets = 2 * n + 2 * (n / 2 : ℕ)
  send : s.server.metrics.totalSendPackets = 2 * n + 6 * (n / 2 : ℕ)

variable {p : SessionId → ℤ} {o : Orders} {n : ℕ}

/-! ### The orders of a quiet state -/

/-- The players of room `k` asked `2 * k`-th and `2 * k + 1`-st. -/
theorem Orders.getElem?_seated {rooms : List (SessionId × SessionId)} {k : ℕ} {a b : SessionId}
    (hk : rooms[k]? = some (a, b)) :
    (rooms.flatMap fun x => [x.1, x.2])[2 * k]? = some a ∧
      (rooms.flatMap fun x => [x.1, x.2])[2 * k + 1]? = some b := by
  induction rooms generalizing k with
  | nil => cases hk
  | cons x rooms ih =>
    cases k with
    | zero =>
      obtain rfl := Option.some.inj hk
      exact ⟨rfl, rfl⟩
    | succ k => exact ih hk

/-- Everybody has been placed, and everybody with a room has chatted. -/
structure Orders.Complete (o : Orders) (n : ℕ) : Prop where
  asked : ∀ i < n, i ∈ o.asked
  chats : o.seated ⊆ o.chats

/-- The counts of complete orders. -/
theorem Orders.Complete.counts (h : o.Complete n) (hv : o.Valid n) :
    o.rooms.length = n / 2 ∧ o.waiting.toList.length = n % 2 ∧ o.logins.length = n ∧
      o.asked.length = n ∧ o.chats.length = 2 * (n / 2) := by
  obtain ⟨hlogins, hasked, hchats⟩ := hv.bounds
  have hn : n ≤ o.asked.length := by
    have hsub : List.range n ⊆ o.asked := fun i hi => h.asked i (List.mem_range.1 hi)
    have hle := (List.nodup_range.subperm hsub).length_le
    rwa [List.length_range] at hle
  have hseated : 2 * o.rooms.length ≤ o.chats.length := by
    rw [← length_seated]
    exact (hv.nodup_seated.subperm h.chats).length_le
  have hwaiting : o.waiting.toList.length ≤ 1 := by cases o.waiting <;> simp
  have hsplit := o.length_asked
  omega

/-- **A quiet client** waits, or it has chatted and has read everything. -/
theorem Stage.quiet {i : SessionId} {c : Endpoint} {msgs : List Response} (h : Stage p o i c msgs)
    (hstarted : c.started = true) (hup : c.up = []) (hread : c.received.length = msgs.length) :
    o.waiting = some i ∨ ∃ (k : ℕ) (a b : SessionId), o.rooms[k]? = some (a, b) ∧
      (i = a ∨ i = b) ∧ i ∈ o.chats ∧ c.received = roomScript p o i k a b := by
  cases h with
  | away _ hc =>
    rw [hc] at hstarted
    cases hstarted
  | calling _ _ hup' | asking _ _ _ _ hup' => cases hup.symm.trans hup'
  | told _ _ _ _ _ _ _ _ hup' => cases hup.symm.trans hup'
  | greeted _ _ _ _ hrec =>
    rw [hrec] at hread
    cases hread
  | waiting hi => exact .inl hi
  | seated k a b _ _ _ _ _ _ hrec =>
    have hlen : 3 ≤ (roomScript p o i k a b).length := by
      rw [roomScript, List.length_append]
      exact Nat.le_add_right 3 _
    rcases hrec with hrec | hrec
    · rw [hrec, List.length_singleton] at hread
      omega
    · rw [hrec, List.length_cons, List.length_singleton] at hread
      omega
  | chatted k a b hk hi hchat _ _ _ hrec =>
    exact .inr ⟨k, a, b, hk, hi, hchat, hrec.2.eq_of_length hread⟩

theorem Bench.At.complete {s : Bench} (h : s.At p o n) (hv : o.Valid n) (hq : s.Quiet n) :
    o.Complete n := by
  have hquiet : ∀ i < n, o.waiting = some i ∨ i ∈ o.seated ∧ i ∈ o.chats := fun i hi => by
    obtain ⟨hstarted, hup, hread⟩ := hq i hi
    rcases (h.client i).quiet hstarted hup hread with hw | ⟨k, a, b, hk, hi, hchat, -⟩
    · exact .inl hw
    · exact .inr ⟨Orders.mem_seated.2 ⟨k, a, b, hk, hi⟩, hchat⟩
  constructor
  case asked =>
    intro i hi
    rcases hquiet i hi with hw | ⟨hs, -⟩
    · exact List.mem_append_right _ (by simp [hw])
    · exact List.mem_append_left _ hs
  case chats =>
    intro i hi
    have hlt := hv.lt i (hv.asked_sub (List.mem_append_left _ hi))
    rcases hquiet i hlt with hw | ⟨-, hchat⟩
    · exact absurd hi (hv.not_seated_of_waiting hw)
    · exact hchat

/-! ### What the server holds, and what was read -/

namespace ServerAt

variable {s : Server} {i : SessionId}

theorem getRoom_iff (h : ServerAt p o s) {r : RoomId} {room : Room} :
    s.roomManager.getRoom r = some room ↔ ∃ (k : ℕ) (a b : SessionId),
      o.rooms[k]? = some (a, b) ∧ r = 1 + (k : ℤ) ∧
      room = Room.new (1 + (k : ℤ)) [p a, p b] := by
  rw [RoomManager.getRoom_eq_some]
  constructor
  · intro hroom
    obtain ⟨k, hk, rfl⟩ := h.noRoom (Finmap.mem_of_lookup_eq_some hroom)
    have hab : o.rooms[k]? = some (o.rooms[k].1, o.rooms[k].2) := List.getElem?_eq_getElem hk
    rw [h.room hab] at hroom
    exact ⟨k, _, _, hab, rfl, (Option.some.inj (Option.some.inj hroom)).symm⟩
  · rintro ⟨k, a, b, hk, rfl, rfl⟩
    exact h.room hk

theorem inRoom_iff (h : ServerAt p o s) (hv : o.Valid n) (hi : i ∈ o.logins) {r : RoomId} :
    s.InRoom (p i) r ↔ ∃ (k : ℕ) (a b : SessionId),
      o.rooms[k]? = some (a, b) ∧ r = 1 + (k : ℤ) ∧ (i = a ∨ i = b) := by
  constructor
  · rintro ⟨room, hroom, hmem⟩
    obtain ⟨k, a, b, hk, rfl, rfl⟩ := h.getRoom_iff.1 hroom
    obtain ⟨ha, hb⟩ := hv.mem_logins_of_room hk
    have hmem : p i ∈ [p a, p b] := hmem
    rw [List.mem_cons, List.mem_singleton] at hmem
    exact ⟨k, a, b, hk, rfl, hmem.imp (h.inj hi ha) (h.inj hi hb)⟩
  · rintro ⟨k, a, b, hk, rfl, hi⟩
    refine ⟨_, h.getRoom_iff.2 ⟨k, a, b, hk, rfl, rfl⟩, ?_⟩
    show p i ∈ [p a, p b]
    rw [List.mem_cons, List.mem_singleton]
    exact hi.imp (congrArg p) (congrArg p)

theorem roomCount (h : ServerAt p o s) : s.roomManager.roomCount = o.rooms.length := by
  have hkeys : s.roomManager.rooms.keys =
      (Finset.range o.rooms.length).image fun k : ℕ => 1 + (k : ℤ) := by
    ext r
    rw [Finmap.mem_keys, Finset.mem_image]
    constructor
    · intro hr
      obtain ⟨k, hk, rfl⟩ := h.noRoom hr
      exact ⟨k, Finset.mem_range.2 hk, rfl⟩
    · rintro ⟨k, hk, rfl⟩
      have hab := List.getElem?_eq_getElem (Finset.mem_range.1 hk)
      exact Finmap.mem_of_lookup_eq_some (h.room hab)
  have hinj : Function.Injective fun k : ℕ => 1 + (k : ℤ) := fun k k' hkk' => by
    have hkk' : 1 + (k : ℤ) = 1 + (k' : ℤ) := hkk'
    omega
  rw [RoomManager.roomCount, Table.size, hkeys, Finset.card_image_of_injective _ hinj,
    Finset.card_range]

theorem mem_queue_iff (h : ServerAt p o s) (hv : o.Valid n) (hi : i ∈ o.logins) :
    p i ∈ s.matchQueue.queue ↔ o.waiting = some i := by
  rw [h.queue]
  cases hw : o.waiting with
  | none => simp
  | some w =>
    have hwl : w ∈ o.logins := hv.asked_sub (List.mem_append_right _ (by simp [hw]))
    show p i ∈ [p w] ↔ _
    rw [List.mem_singleton, Option.some.injEq]
    exact ⟨fun e => (h.inj hi hwl e).symm, fun e => congrArg p e.symm⟩

end ServerAt

/-- Both players of a room have chatted there, once. -/
theorem length_chatsIn (hv : o.Valid n) (hc : o.Complete n) {k : ℕ} {a b : SessionId}
    (hk : o.rooms[k]? = some (a, b)) : (chatsIn p o.chats k a b).length = 2 := by
  have hpair : [a, b].Nodup := List.nodup_cons.2
    ⟨fun hab => hv.ne_of_room hk (List.mem_singleton.1 hab), List.nodup_singleton b⟩
  have hperm : (o.chats.filter fun j => j = a ∨ j = b).Perm [a, b] := by
    rw [List.perm_ext_iff_of_nodup (hv.nodup_chats.filter _) hpair]
    intro j
    rw [List.mem_filter, decide_eq_true_iff, List.mem_cons, List.mem_singleton]
    exact and_iff_right_of_imp fun hj => hc.chats (Orders.mem_seated.2 ⟨k, a, b, hk, hj⟩)
  rw [chatsIn, List.length_map]
  exact hperm.length_eq

/-- What a client in a room was sent has one notification of the room and those of its chats. -/
theorem readCount_of_script {c : Endpoint} {i : SessionId} {k : ℕ} {a b : SessionId}
    (hrec : c.received = roomScript p o i k a b) :
    c.readCount MessageId.RoomCreatedNotify = 1 ∧
      c.readCount MessageId.ChatNotify = (chatsIn p o.chats k a b).length := by
  have hid : ∀ msg ∈ chatsIn p o.chats k a b, msg.msgId = MessageId.ChatNotify := fun msg hmsg => by
    obtain ⟨j, -, rfl⟩ := List.mem_map.1 hmsg
    rfl
  unfold Endpoint.readCount
  rw [hrec, roomScript, List.countP_append, List.countP_append]
  have hnone : (chatsIn p o.chats k a b).countP
      (fun msg => msg.msgId = MessageId.RoomCreatedNotify) = 0 :=
    List.countP_eq_zero.2 fun msg hmsg => by
      rw [hid msg hmsg]
      decide
  have hall : (chatsIn p o.chats k a b).countP (fun msg => msg.msgId = MessageId.ChatNotify) =
      (chatsIn p o.chats k a b).length :=
    List.countP_eq_length.2 fun msg hmsg => decide_eq_true (hid msg hmsg)
  rw [hnone, hall]
  exact ⟨rfl, Nat.zero_add _⟩

/-! ### The totals -/

/-- A client that asked waits and is in no room, or is in one room and does not wait. -/
theorem ServerAt.placed {s : Server} (h : ServerAt p o s) (hv : o.Valid n) {i : SessionId}
    (hi : i ∈ o.asked) :
    o.waiting = some i ∧ (∀ r, ¬ s.InRoom (p i) r) ∨ ¬ o.waiting = some i ∧ ∃! r, s.InRoom (p i) r := by
  have hroom := fun r => h.inRoom_iff hv (hv.asked_sub hi) (r := r)
  rcases List.mem_append.1 hi with hs | hw
  · obtain ⟨k, a, b, hk, hab⟩ := Orders.mem_seated.1 hs
    refine .inr ⟨fun hw => hv.not_seated_of_waiting hw hs, 1 + k,
      (hroom _).2 ⟨k, a, b, hk, rfl, hab⟩, fun r hr => ?_⟩
    obtain ⟨k', a', b', hk', rfl, hab'⟩ := (hroom r).1 hr
    rw [hv.room_unique hk' hk hab' hab]
  · have hw := Option.mem_toList.1 hw
    refine .inl ⟨hw, fun r hr => ?_⟩
    obtain ⟨k, a, b, hk, -, hab⟩ := (hroom r).1 hr
    exact hv.not_seated_of_waiting hw (Orders.mem_seated.2 ⟨k, a, b, hk, hab⟩)

/-- A client in a room has read what there is to read, when nothing is in flight. -/
theorem Bench.At.read_of_seated {s : Bench} (h : s.At p o n) (hv : o.Valid n) (hq : s.Quiet n)
    {i : SessionId} (hi : i < n) (hs : i ∈ o.seated) :
    (s.client i).readCount MessageId.RoomCreatedNotify = 1 ∧
      (s.client i).readCount MessageId.ChatNotify = 2 ∧
      (s.server.playerStateRepository.loadPlayerState (p i)).map PlayerState.score = some 1 := by
  obtain ⟨hstarted, hup, hread⟩ := hq i hi
  rcases (h.client i).quiet hstarted hup hread with hw | ⟨k, a, b, hk, hab, hchat, hrec⟩
  · exact absurd hs (hv.not_seated_of_waiting hw)
  · obtain ⟨hnotify, hchats⟩ := readCount_of_script hrec
    rw [length_chatsIn hv (h.complete hv hq) hk] at hchats
    have hscore := h.server.score (hv.asked_sub ((h.complete hv hq).asked i hi))
    rw [if_pos hchat] at hscore
    exact ⟨hnotify, hchats, hscore⟩

/-- **The totals of a described state**, when nothing is in flight. -/
theorem Bench.At.totals {s : Bench} (h : s.At p o n) (hv : o.Valid n) (hq : s.Quiet n) :
    s.Totals n (o.asked.map p) := by
  have hc := h.complete hv hq
  obtain ⟨hrooms, hwaiting, hlogins, hasked, hchats⟩ := hc.counts hv
  have hmem : ∀ i < n, i ∈ o.logins := fun i hi => hv.asked_sub (hc.asked i hi)
  have hid : ∀ i ∈ o.logins, s.playerOf i = p i := fun i hi => h.server.playerId hi
  constructor
  case rooms => rw [h.server.roomCount, hrooms]
  case queued =>
    rw [h.server.queue, ← hwaiting]
    cases o.waiting <;> rfl
  case distinct =>
    intro i hi j hj hij
    rw [hid i (hmem i hi), hid j (hmem j hj)] at hij
    exact h.server.inj (hmem i hi) (hmem j hj) hij
  case placed =>
    intro i hi
    rw [hid i (hmem i hi), h.server.mem_queue_iff hv (hmem i hi)]
    exact h.server.placed hv (hc.asked i hi)
  case pair =>
    intro r room hroom
    obtain ⟨k, a, b, hk, rfl, rfl⟩ := h.server.getRoom_iff.1 hroom
    obtain ⟨ha, hb⟩ := hv.mem_logins_of_room hk
    refine ⟨a, hv.lt a ha, b, hv.lt b hb, hv.ne_of_room hk, ?_⟩
    rw [hid a ha, hid b hb]
    rfl
  case room =>
    intro k hk
    rw [← hrooms] at hk
    have hab : o.rooms[k]? = some (o.rooms[k].1, o.rooms[k].2) := List.getElem?_eq_getElem hk
    obtain ⟨ha, hb⟩ := Orders.getElem?_seated hab
    have hasked : ∀ (m : ℕ) {i}, o.seated[m]? = some i → (o.asked.map p)[m]? = some (p i) := by
      intro m i hm
      rw [List.getElem?_map, Orders.asked,
        List.getElem?_append_left (List.getElem?_eq_some_iff.1 hm).1, hm]
      rfl
    exact ⟨_, _, _, hasked _ ha, hasked _ hb, h.server.getRoom_iff.2 ⟨k, _, _, hab, rfl, rfl⟩, rfl⟩
  case roomed =>
    intro i hi r hr
    rw [hid i (hmem i hi)] at hr ⊢
    obtain ⟨k, a, b, hk, -, hab⟩ := (h.server.inRoom_iff hv (hmem i hi)).1 hr
    exact h.read_of_seated hv hq hi (Orders.mem_seated.2 ⟨k, a, b, hk, hab⟩)
  case recv =>
    rw [h.server.recv]
    omega
  case send =>
    rw [h.server.send]
    omega

/-- **Every order of `n` clients adds up to the same.**  In every run of the benchmark no
request that has arrived fails, and when nothing is in flight the totals are those of `n`
clients; an id and a counter have to be an `int`. -/
theorem matchmaking_totals (hn : 2 * n + 6 * (n / 2) < 2 ^ 31) {tr : List (Bench × BenchEvent)}
    {s : Bench} (h : (bench n).Run tr s) :
    (∀ {i : SessionId} {req : Request} {rest : List Request} {now : Instant},
      (s.client i).up = req :: rest → s.server.alive i →
      ∃ s', server.step s.server (.request i req now) s') ∧
    (s.Quiet n → s.Totals n (matched tr)) := by
  obtain ⟨o, hv, hat⟩ := Bench.at_of_run hn h
  obtain ⟨p, hp⟩ := exists_assigns hv.nodup_logins
  obtain ⟨hs, hmatched⟩ := hat p hp
  constructor
  · intro i req rest now hup halive
    exact hs.server.returns hv hn hp (hs.client i) hup halive
  · intro hq
    rw [hmatched]
    exact hs.totals hv hq

/-! ### A run -/

/-- The state of the server that an event leads to, by computation. -/
def Server.next (s : Server) (e : Event) : Option Server :=
  if s.enables e then (s.step e).toOption else none

theorem Server.step_of_next {s s' : Server} {e : Event} (h : s.next e = some s') :
    server.step s e s' := by
  unfold Server.next at h
  split_ifs at h with hen
  refine ⟨Server.enabled_of_enables hen, ?_⟩
  cases hs : s.step e with
  | error f =>
    rw [hs] at h
    cases h
  | ok s₁ =>
    rw [hs] at h
    exact congrArg Except.ok (Option.some.inj h)

/-- The state of the benchmark that an event leads to. -/
def Bench.next (n : ℕ) (s : Bench) : BenchEvent → Option Bench
  | .start i =>
    if i < n ∧ (s.client i).started = false then some (s.setClient i (s.client i).start) else none
  | .accept i now =>
    if (s.client i).started then
      (s.server.next (.accept i now)).map fun server' => { s with server := server' }
    else none
  | .serve i now =>
    match (s.client i).up with
    | [] => none
    | req :: rest => (s.server.next (.request i req now)).map fun server' =>
        { s.setClient i { s.client i with up := rest } with server := server' }
  | .receive i => (s.server.sentTo i)[(s.client i).received.length]?.map fun msg =>
      s.setClient i ((s.client i).read msg)
  | .sweep order now => (s.server.next (.sweep order now)).map fun server' =>
      { s with server := server' }

theorem Bench.step_of_next {s s' : Bench} {e : BenchEvent} (h : s.next n e = some s') :
    Bench.Step n s e s' := by
  cases e with
  | start i =>
    dsimp only [Bench.next] at h
    split_ifs at h with hi
    obtain rfl := Option.some.inj h
    exact .start hi.1 hi.2
  | accept i now =>
    dsimp only [Bench.next] at h
    split_ifs at h with hstarted
    obtain ⟨server', hs, rfl⟩ := Option.map_eq_some_iff.1 h
    exact .accept hstarted (Server.step_of_next hs)
  | serve i now =>
    dsimp only [Bench.next] at h
    split at h
    · cases h
    · rename_i req rest hup
      obtain ⟨server', hs, rfl⟩ := Option.map_eq_some_iff.1 h
      exact .serve hup (Server.step_of_next hs)
  | receive i =>
    obtain ⟨msg, hmsg, rfl⟩ := Option.map_eq_some_iff.1 h
    exact .receive hmsg
  | sweep order now =>
    obtain ⟨server', hs, rfl⟩ := Option.map_eq_some_iff.1 h
    exact .sweep (Server.step_of_next hs)

/-- Three clients, of whom the last to be matched is left over. -/
def threeClients : List BenchEvent :=
  [.start 0, .start 1, .accept 1 {}, .start 2, .accept 0 {}, .serve 1 {}, .serve 0 {}, .receive 0,
    .receive 1, .accept 2 {}, .serve 1 {}, .serve 2 {}, .serve 0 {}, .receive 1, .receive 2,
    .receive 1, .serve 1 {}, .serve 2 {}, .receive 0, .receive 0, .serve 0 {}, .receive 0,
    .receive 0, .receive 1, .receive 1, .receive 2]

theorem matchmaking_totals_three : ∃ tr s, (bench 3).Run tr s ∧ s.Totals 3 (matched tr) := by
  obtain ⟨tr, s, h, hq⟩ := Transition.System.exists_run_of_replay (M := bench 3)
    (Q := fun _ s => s.Quiet 3) (fun _ _ _ => Bench.step_of_next) threeClients
    (by decide +kernel)
  exact ⟨tr, s, h, (matchmaking_totals (by decide) h).2 hq⟩

end GameServer
