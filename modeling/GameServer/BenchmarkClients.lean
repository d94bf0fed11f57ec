/-
# The clients of the benchmark

What a client reads moves it from one stage to the next, and what it writes is handled in
that stage only.  Each step therefore keeps the description (`Bench.At`), and every run of
the benchmark is described by the orders it has handled (`Bench.at_of_run`).
-/

import GameServer.BenchmarkServer

namespace GameServer

variable {p : SessionId → ℤ} {o : Orders} {n : ℕ}

/-! ### What the clients read -/

/-- The next message extends what was read. -/
theorem prefix_concat {α : Type*} {l full : List α} {a : α} (h : l <+: full)
    (ha : full[l.length]? = some a) : l ++ [a] <+: full := by
  obtain ⟨rest, rfl⟩ := h
  rw [List.getElem?_append_right le_rfl, Nat.sub_self] at ha
  cases rest with
  | nil => cases ha
  | cons b rest =>
    cases ha
    exact ⟨rest, by rw [List.append_assoc]; rfl⟩

/-- After the notification of the room come chats. -/
theorem eq_hello_of_script {i k a b m : ℕ} {msg : Response} (hm : 3 ≤ m)
    (h : (roomScript p o i k a b)[m]? = some msg) : ∃ j, msg = hello p k j := by
  rw [roomScript, List.getElem?_append_right hm] at h
  obtain ⟨j, -, hj⟩ := List.mem_map.1 (List.mem_of_getElem? h)
  exact ⟨j, hj.symm⟩

/-- Told of its room, a client chats there. -/
theorem read_roomCreatedNotify (c : Endpoint) (msg : RoomCreatedNotify) :
    c.read (.roomCreatedNotify msg) = { c with
      client := { c.client with roomId := toInt msg.roomId }
      up := c.up ++ [.chat {
        roomId := toInt msg.roomId
        text := ascii "hello from " ++ LoginService.toString c.client.playerId }]
      received := c.received ++ [.roomCreatedNotify msg] } := rfl

/-- **A client reads the next message** and answers it. -/
theorem Stage.read {i : SessionId} {c : Endpoint} {msgs : List Response} {msg : Response}
    (h : Stage p o i c msgs) (hv : o.Valid n) (hn : 2 * n + 6 * (n / 2) < 2 ^ 31)
    (hp : Assigns p o.logins) (hmsg : msgs[c.received.length]? = some msg) :
    Stage p o i (c.read msg) msgs := by
  cases h with
  | away | calling => cases hmsg
  | greeted hi hask hstarted hup hrec =>
    rw [hrec] at hmsg
    obtain rfl := Option.some.inj hmsg
    have hpos : ¬ p i ≤ 0 := by
      have := (hp.range hi).1
      omega
    have hid := toInt_id hp hv hn hi
    refine .asking hi hask hstarted hid ?_ ?_
    · show c.up ++ ClientSimulator.match { c.client with playerId := toInt (p i), token := _ } = _
      rw [hup, ClientSimulator.match, hid, if_neg hpos]
      rfl
    · show c.received ++ _ = _
      rw [hrec]
      rfl
  | asking _ _ _ _ _ hrec =>
    rw [hrec] at hmsg
    cases hmsg
  | waiting hi hstarted hid hup hrec =>
    rcases hrec with hrec | hrec <;> rw [hrec] at hmsg <;> cases hmsg
    refine .waiting hi hstarted hid ?_ (.inr ?_)
    · show c.up ++ [] = []
      rw [hup, List.append_nil]
    · show c.received ++ _ = _
      rw [hrec]
      rfl
  | seated k a b hk hi hchat hstarted hid hup hrec =>
    rcases hrec with hrec | hrec <;> rw [hrec] at hmsg <;> obtain rfl := Option.some.inj hmsg
    · refine .seated k a b hk hi hchat hstarted hid ?_ (.inr ?_)
      · show c.up ++ [] = []
        rw [hup, List.append_nil]
      · show c.received ++ _ = _
        rw [hrec]
        rfl
    · have hroom : toInt (1 + (k : ℤ)) = 1 + k := by
        have hlt := (List.getElem?_eq_some_iff.1 hk).1
        have := (hv.inRange hn).2.1
        exact toInt_of_lt (by omega) (by omega)
      rw [roomOk, read_roomCreatedNotify]
      dsimp only
      rw [hroom, hid, hup, hrec]
      exact .told k a b hk hi hchat hstarted rfl rfl ⟨le_rfl, List.prefix_append ..⟩
  | told k a b hk hi hchat hstarted hid hup hrec =>
    obtain ⟨j, rfl⟩ := eq_hello_of_script hrec.1 hmsg
    refine .told k a b hk hi hchat hstarted hid ?_ ⟨?_, prefix_concat hrec.2 hmsg⟩
    · show c.up ++ [] = _
      rw [hup, List.append_nil]
    · show 3 ≤ (c.received ++ _).length
      rw [List.length_append]
      exact Nat.le_add_right_of_le hrec.1
  | chatted k a b hk hi hchat hstarted hid hup hrec =>
    obtain ⟨j, rfl⟩ := eq_hello_of_script hrec.1 hmsg
    refine .chatted k a b hk hi hchat hstarted hid ?_ ⟨?_, prefix_concat hrec.2 hmsg⟩
    · show c.up ++ [] = _
      rw [hup, List.append_nil]
    · show 3 ≤ (c.received ++ _).length
      rw [List.length_append]
      exact Nat.le_add_right_of_le hrec.1

/-- Who waits has been told so, or will be. -/
theorem Stage.of_waiting {i : SessionId} {c : Endpoint} {msgs : List Response}
    (h : Stage p o i c msgs) (hv : o.Valid n) (hw : o.waiting = some i) :
    c.started = true ∧ c.client.playerId = p i ∧ c.up = [] ∧
      (c.received = [loginOk p i] ∨ c.received = [loginOk p i, matchOk]) ∧
      msgs = [loginOk p i, matchOk] := by
  have hasked : i ∈ o.asked := List.mem_append_right _ (by simp [hw])
  have hseated : ∀ {k : ℕ} {a b}, o.rooms[k]? = some (a, b) → i = a ∨ i = b → False :=
    fun hk hi => hv.not_seated_of_waiting hw (Orders.mem_seated.2 ⟨_, _, _, hk, hi⟩)
  cases h with
  | away hi | calling hi => exact absurd (hv.asked_sub hasked) hi
  | greeted _ hask | asking _ hask => exact absurd hasked hask
  | waiting _ hstarted hid hup hrec => exact ⟨hstarted, hid, hup, hrec, rfl⟩
  | seated k a b hk hi => exact (hseated hk hi).elim
  | told k a b hk hi => exact (hseated hk hi).elim
  | chatted k a b hk hi => exact (hseated hk hi).elim

/-- What one more chat, in room `1 + k`, adds to the chats of the room of `j`. -/
theorem chatsIn_concat (hv : o.Valid n) {k k' a b a' b' i j : ℕ} (hk : o.rooms[k]? = some (a, b))
    (hk' : o.rooms[k']? = some (a', b')) (hi : i = a ∨ i = b) (hj : j = a' ∨ j = b') :
    chatsIn p (o.chats ++ [i]) k' a' b' =
      chatsIn p o.chats k' a' b' ++ if j = a ∨ j = b then [hello p k i] else [] := by
  rw [chatsIn, chatsIn, List.filter_append, List.map_append]
  by_cases hj' : j = a ∨ j = b
  · obtain rfl := hv.room_unique hk hk' hj' hj
    cases hk.symm.trans hk'
    rw [if_pos hj', List.filter_singleton, decide_eq_true hi]
    rfl
  · have hi' : ¬ (i = a' ∨ i = b') := fun hi' => by
      obtain rfl := hv.room_unique hk hk' hi hi'
      cases hk.symm.trans hk'
      exact hj' hj
    rw [if_neg hj', List.filter_singleton, decide_eq_false hi']
    rfl

namespace Bench.At

variable {s : Bench} {i : SessionId} {now : Instant} {server' : Server}

theorem init (p : SessionId → ℤ) (n : ℕ) : At p {} n {} where
  server := .init p
  client _ := .away List.not_mem_nil rfl
  lt _ h := by cases h

/-- A step that concerns client `i` and the server. -/
theorem of_update {o' : Orders} {c : Endpoint} (h : s.At p o n) (hserver : ServerAt p o' server')
    (hlt : c.started = true → i < n) (hi : Stage p o' i c (server'.sentTo i))
    (hothers : ∀ j, j ≠ i → Stage p o' j (s.client j) (server'.sentTo j)) :
    At p o' n { s.setClient i c with server := server' } where
  server := hserver
  client j := by
    show Stage p o' j (Function.update s.client i c j) _
    by_cases hj : j = i
    · subst hj
      rw [Function.update_self]
      exact hi
    · rw [Function.update_of_ne hj]
      exact hothers j hj
  lt j hj := by
    have hj : (Function.update s.client i c j).started = true := hj
    by_cases hji : j = i
    · subst hji
      rw [Function.update_self] at hj
      exact hlt hj
    · rw [Function.update_of_ne hji] at hj
      exact h.lt j hj

theorem start (h : s.At p o n) (hi : i < n) (hnew : (s.client i).started = false) :
    At p o n (s.setClient i (s.client i).start) := by
  refine h.of_update h.server (fun _ => hi) ?_ fun j _ => h.client j
  have hstage := h.client i
  generalize s.server.sentTo i = msgs at hstage ⊢
  cases hstage with
  | away hi hc =>
    rw [hc]
    exact .calling hi rfl rfl rfl
  | calling _ hstarted | greeted _ _ hstarted | asking _ _ hstarted | waiting _ hstarted =>
    cases hnew.symm.trans hstarted
  | seated _ _ _ _ _ _ hstarted | told _ _ _ _ _ _ hstarted | chatted _ _ _ _ _ _ hstarted =>
    cases hnew.symm.trans hstarted

theorem receive {msg : Response} (h : s.At p o n) (hv : o.Valid n)
    (hn : 2 * n + 6 * (n / 2) < 2 ^ 31) (hp : Assigns p o.logins)
    (hmsg : (s.server.sentTo i)[(s.client i).received.length]? = some msg) :
    At p o n (s.setClient i ((s.client i).read msg)) :=
  h.of_update h.server (h.lt i) ((h.client i).read hv hn hp hmsg) fun j _ => h.client j

theorem accept (h : s.At p o n) (hs : GameServer.server.step s.server (.accept i now) server') :
    At p o n { s with server := server' } := by
  obtain ⟨hserver, hsent⟩ := h.server.accept hs
  refine ⟨hserver, fun j => ?_, h.lt⟩
  rw [Server.sentTo, hsent]
  exact h.client j

/-- The server handles a login. -/
theorem login (h : s.At p o n) (hv : o.Valid n) (hn : 2 * n + 6 * (n / 2) < 2 ^ 31)
    (hp : Assigns p (o.login i).logins) (hnew : i ∉ o.logins)
    (hstarted : (s.client i).started = true) (hrec : (s.client i).received = [])
    (hmsgs : s.server.sentTo i = [])
    (hs : GameServer.server.step s.server (.request i ClientSimulator.login now) server') :
    At p (o.login i) n { s.setClient i { s.client i with up := [] } with server := server' } := by
  obtain ⟨hserver, hsent⟩ := h.server.login hv hn hp (h.lt i hstarted) hnew hs
  have hmem : ∀ j, j ∈ (o.login i).logins ↔ j ∈ o.logins ∨ j = i := fun j => by
    rw [Orders.login, List.mem_append, List.mem_singleton]
  refine h.of_update hserver (h.lt i) ?_ fun j hj => ?_
  · rw [Server.sentTo_append hsent, hmsgs, sent_cons, if_pos rfl]
    refine .greeted ((hmem i).2 (.inr rfl)) (fun hask => hnew (hv.asked_sub hask)) hstarted rfl hrec
  · rw [Server.sentTo_append hsent, sent_cons, if_neg (Ne.symm hj)]
    refine (h.client j).congr hv [] ?_ id id (fun _ _ => id) Iff.rfl (fun _ => rfl)
      fun k a b _ _ => (List.append_nil _).symm
    rw [hmem, or_iff_left hj]

/-- The server handles a MatchReq of a client that finds nobody waiting. -/
theorem wait (h : s.At p o n) (hserver : ServerAt p (o.ask i) server') (hw : o.waiting = none)
    (hstarted : (s.client i).started = true) (hid : (s.client i).client.playerId = p i)
    (hrec : (s.client i).received = [loginOk p i]) (hmsgs : s.server.sentTo i = [loginOk p i])
    (hv : o.Valid n) (hsent : server'.sent = s.server.sent ++ [(i, matchOk)]) :
    At p (o.ask i) n { s.setClient i { s.client i with up := [] } with server := server' } := by
  have hask : o.ask i = { o with waiting := some i } := by rw [Orders.ask, hw]
  refine h.of_update hserver (h.lt i) ?_ fun j hj => ?_
  · rw [Server.sentTo_append hsent, hmsgs, sent_cons, if_pos rfl, hask]
    exact .waiting rfl hstarted hid rfl (.inl hrec)
  · rw [Server.sentTo_append hsent, sent_cons, if_neg (Ne.symm hj)]
    refine (h.client j).congr hv [] ?_ (fun hj' => ?_) (fun hwj => ?_) ?_ ?_ (fun _ => rfl) ?_
    · rw [hask]
    · rw [Orders.asked_ask, List.mem_append, List.mem_singleton, not_or]
      exact ⟨hj', hj⟩
    · rw [hw] at hwj
      cases hwj
    · rw [hask]
      exact fun _ _ => id
    · rw [hask]
    · rw [hask]
      exact fun k a b _ _ => (List.append_nil _).symm

/-- The server handles a MatchReq of a client that is given a room with client `j`. -/
theorem pair {j : SessionId} (h : s.At p o n) (hserver : ServerAt p (o.ask i) server')
    (hw : o.waiting = some j) (hnew : i ∉ o.asked) (hstarted : (s.client i).started = true)
    (hid : (s.client i).client.playerId = p i) (hrec : (s.client i).received = [loginOk p i])
    (hmsgs : s.server.sentTo i = [loginOk p i]) (hv : o.Valid n)
    (hsent : server'.sent = s.server.sent ++ [(i, matchOk), (j, roomOk p o.rooms.length j i),
      (i, roomOk p o.rooms.length j i)]) :
    At p (o.ask i) n { s.setClient i { s.client i with up := [] } with server := server' } := by
  have hask : o.ask i = { o with rooms := o.rooms ++ [(j, i)], waiting := none } := by
    rw [Orders.ask, hw]
  have hji : j ≠ i := by
    rintro rfl
    exact hnew (List.mem_append_right _ (by simp [hw]))
  have hseat : ∀ m, m = j ∨ m = i → m ∉ o.chats := by
    rintro m (rfl | rfl) hm
    · exact hv.not_seated_of_waiting hw (hv.chats_sub hm)
    · exact hnew (List.mem_append_left _ (hv.chats_sub hm))
  have hnone : chatsIn p o.chats o.rooms.length j i = [] := by
    rw [chatsIn, List.filter_eq_nil_iff.2 fun m hm => ?_, List.map_nil]
    simpa using fun e => hseat m e hm
  have hk : (o.rooms ++ [(j, i)])[o.rooms.length]? = some (j, i) := List.getElem?_concat_length
  refine h.of_update hserver (h.lt i) ?_ fun m hm => ?_
  · have hmsgs' : server'.sentTo i =
        roomScript p { o with rooms := o.rooms ++ [(j, i)], waiting := none } i o.rooms.length j i := by
      rw [Server.sentTo_append hsent, hmsgs, sent_cons, if_pos rfl, sent_cons, if_neg hji, sent_cons,
        if_pos rfl, roomScript, hnone]
      rfl
    rw [hmsgs', hask]
    exact .seated o.rooms.length j i hk (.inr rfl) (hseat i (.inr rfl)) hstarted hid rfl (.inl hrec)
  · rw [Server.sentTo_append hsent, sent_cons, if_neg (Ne.symm hm), sent_cons, sent_cons,
      if_neg (Ne.symm hm)]
    by_cases hmj : j = m
    · subst hmj
      obtain ⟨hstarted', hid', hup', hrec', hmsgs'⟩ := (h.client j).of_waiting hv hw
      have hmsgs'' : s.server.sentTo j ++ [roomOk p o.rooms.length j i] = roomScript p
          { o with rooms := o.rooms ++ [(j, i)], waiting := none } j o.rooms.length j i := by
        rw [hmsgs', roomScript, hnone]
        rfl
      rw [if_pos rfl, hask]
      show Stage p _ j _ (s.server.sentTo j ++ [roomOk p o.rooms.length j i])
      rw [hmsgs'']
      exact .seated o.rooms.length j i hk (.inl rfl) (hseat j (.inl rfl)) hstarted' hid' hup' hrec'
    · rw [if_neg hmj]
      refine (h.client m).congr hv [] ?_ (fun hm' => ?_) (fun hwm => ?_) ?_ ?_ (fun _ => rfl) ?_
      · rw [hask]
      · rw [Orders.asked_ask, List.mem_append, List.mem_singleton, not_or]
        exact ⟨hm', hm⟩
      · rw [hw] at hwm
        exact absurd (Option.some.inj hwm) hmj
      · rw [hask]
        exact fun k x hx => (List.getElem?_append_left (List.getElem?_eq_some_iff.1 hx).1).trans hx
      · rw [hask]
      · rw [hask]
        exact fun k a b _ _ => (List.append_nil _).symm

/-- The server handles a chat. -/
theorem chat {k : ℕ} {a b : SessionId} (h : s.At p o n) (hserver : ServerAt p (o.chat i) server')
    (hk : o.rooms[k]? = some (a, b)) (hi : i = a ∨ i = b) (hv : o.Valid n)
    (hstarted : (s.client i).started = true) (hid : (s.client i).client.playerId = p i)
    (hrec : 3 ≤ (s.client i).received.length ∧ (s.client i).received <+: roomScript p o i k a b)
    (hmsgs : s.server.sentTo i = roomScript p o i k a b)
    (hsent : server'.sent = s.server.sent ++ [(a, hello p k i), (b, hello p k i)]) :
    At p (o.chat i) n { s.setClient i { s.client i with up := [] } with server := server' } := by
  have hab : a ≠ b := hv.ne_of_room hk
  have hnew : ∀ m, server'.sentTo m =
      s.server.sentTo m ++ if m = a ∨ m = b then [hello p k i] else [] := by
    intro m
    rw [Server.sentTo_append hsent, sent_cons, sent_cons]
    by_cases hma : a = m
    · subst hma
      rw [if_pos rfl, if_neg hab.symm, if_pos (.inl rfl)]
      rfl
    · by_cases hmb : b = m
      · subst hmb
        rw [if_neg hma, if_pos rfl, if_pos (.inr rfl)]
        rfl
      · rw [if_neg hma, if_neg hmb, if_neg (by simp [Ne.symm hma, Ne.symm hmb])]
        rfl
  have hscript : ∀ {m k' a' b'}, o.rooms[k']? = some (a', b') → m = a' ∨ m = b' →
      chatsIn p (o.chat i).chats k' a' b' = chatsIn p o.chats k' a' b' ++
        if m = a ∨ m = b then [hello p k i] else [] := fun hk' hm => chatsIn_concat hv hk hk' hi hm
  have hmem : ∀ m, m ∈ (o.chat i).chats ↔ m ∈ o.chats ∨ m = i := fun m => by
    rw [Orders.chat, List.mem_append, List.mem_singleton]
  refine h.of_update hserver (h.lt i) ?_ fun m hm => ?_
  · have hfull : roomScript p (o.chat i) i k a b = roomScript p o i k a b ++ [hello p k i] := by
      rw [roomScript, hscript hk hi, if_pos hi, ← List.append_assoc]
      rfl
    rw [hnew, hmsgs, if_pos hi, ← hfull]
    refine .chatted k a b hk hi ((hmem i).2 (.inr rfl)) hstarted hid rfl ⟨hrec.1, ?_⟩
    rw [hfull]
    exact hrec.2.trans (List.prefix_append ..)
  · rw [hnew]
    refine (h.client m).congr hv _ Iff.rfl id id (fun _ _ => id) ?_ (fun hout => if_neg fun hm' => ?_)
      fun k' a' b' hk' hm' => hscript hk' hm'
    · rw [hmem, or_iff_left hm]
    · exact hout (Orders.mem_seated.2 ⟨k, a, b, hk, hm'⟩)

/-- **The server handles a request of a client.** -/
theorem serve {req : Request} {rest : List Request} (h : s.At p o n) (hv : o.Valid n)
    (hn : 2 * n + 6 * (n / 2) < 2 ^ 31) (hf : Formed s.server.core)
    (hkeyed : s.server.playerStateRepository.Keyed) (hp : Assigns p (o.handle i req).logins)
    (hup : (s.client i).up = req :: rest)
    (hs : GameServer.server.step s.server (.request i req now) server') :
    At p (o.handle i req) n { s.setClient i { s.client i with up := rest } with server := server' } ∧
      (o.handle i req).asked.map p = o.asked.map p ++ (s.matchOf (.serve i now)).toList := by
  have hstage := h.client i
  have hnil : (s.client i).up ≠ [] := by
    rw [hup]
    exact List.cons_ne_nil _ _
  generalize hmsgs : s.server.sentTo i = msgs at hstage
  cases hstage with
  | away _ hc => exact absurd (hc ▸ rfl) hnil
  | calling hi hstarted hup' hrec =>
    obtain ⟨rfl, rfl⟩ := List.cons.inj (hup.symm.trans hup')
    refine ⟨h.login hv hn hp hi hstarted hrec hmsgs hs, ?_⟩
    rw [Bench.matchOf, hup]
    exact (List.append_nil _).symm
  | asking hi hask hstarted hid hup' hrec =>
    obtain ⟨rfl, rfl⟩ := List.cons.inj (hup.symm.trans hup')
    have hp : Assigns p o.logins := Orders.logins_ask o i ▸ hp
    obtain ⟨hserver, hsent⟩ := h.server.ask hf hkeyed hv hn hp hi hask hs
    refine ⟨?_, ?_⟩
    · cases hw : o.waiting with
      | none =>
        rw [hw] at hsent
        exact h.wait hserver hw hstarted hid hrec hmsgs hv hsent
      | some j =>
        rw [hw] at hsent
        exact h.pair hserver hw hask hstarted hid hrec hmsgs hv hsent
    · rw [Bench.matchOf, hup, Orders.handle, Orders.asked_ask, List.map_append]
      show _ = _ ++ [toInt (p i)]
      rw [toInt_id hp hv hn hi]
      rfl
  | told k a b hk hi hchat hstarted hid hup' hrec =>
    obtain ⟨rfl, rfl⟩ := List.cons.inj (hup.symm.trans hup')
    obtain ⟨hserver, hsent⟩ := h.server.chat hv hn hk hi hchat hs
    refine ⟨h.chat hserver hk hi hv hstarted hid hrec hmsgs hsent, ?_⟩
    rw [Bench.matchOf, hup]
    exact (List.append_nil _).symm
  | greeted _ _ _ hup' => exact absurd hup' hnil
  | waiting _ _ _ hup' => exact absurd hup' hnil
  | seated _ _ _ _ _ _ _ _ hup' => exact absurd hup' hnil
  | chatted _ _ _ _ _ _ _ _ hup' => exact absurd hup' hnil

end Bench.At

/-- The orders stay valid. -/
theorem Orders.Valid.handle {i : SessionId} {c : Endpoint} {msgs : List Response} {req : Request}
    {rest : List Request} (hv : o.Valid n) (h : Stage p o i c msgs) (hlt : c.started = true → i < n)
    (hup : c.up = req :: rest) : (o.handle i req).Valid n := by
  have hnil : c.up ≠ [] := by
    rw [hup]
    exact List.cons_ne_nil _ _
  cases h with
  | away _ hc => exact absurd (hc ▸ rfl) hnil
  | calling hi hstarted hup' =>
    obtain rfl := (List.cons.inj (hup.symm.trans hup')).1
    exact hv.login (hlt hstarted) hi
  | asking hi hask _ _ hup' =>
    obtain rfl := (List.cons.inj (hup.symm.trans hup')).1
    exact hv.ask hi hask
  | told k a b hk hi hchat _ _ hup' =>
    obtain rfl := (List.cons.inj (hup.symm.trans hup')).1
    exact hv.chat (mem_seated.2 ⟨k, a, b, hk, hi⟩) hchat
  | greeted _ _ _ hup' => exact absurd hup' hnil
  | waiting _ _ _ hup' => exact absurd hup' hnil
  | seated _ _ _ _ _ _ _ _ hup' => exact absurd hup' hnil
  | chatted _ _ _ _ _ _ _ _ hup' => exact absurd hup' hnil

/-! ### Runs -/

theorem exists_assigns {logins : List SessionId} (h : logins.Nodup) : ∃ p, Assigns p logins := by
  refine ⟨fun i => 10000 + logins.idxOf i, fun k i hk => ?_⟩
  obtain ⟨hlt, rfl⟩ := List.getElem?_eq_some_iff.1 hk
  show (10000 : ℤ) + (logins.idxOf logins[k] : ℕ) = 10000 + k
  rw [h.idxOf_getElem]

/-- The server of the benchmark is in a reachable state. -/
theorem Bench.server_run {tr : List (Bench × BenchEvent)} {s : Bench} (h : (bench n).Run tr s) :
    ∃ tr', GameServer.server.Run tr' s.server := by
  induction h with
  | nil => exact ⟨[], .nil⟩
  | cons _ hstep ih =>
    obtain ⟨tr', hrun⟩ := ih
    have hstep : Bench.Step n _ _ _ := hstep
    cases hstep with
    | start | receive => exact ⟨tr', hrun⟩
    | accept _ hs | serve _ hs | sweep hs => exact ⟨_, hrun.cons hs⟩

/-- **Every run is described by its orders.** -/
theorem Bench.at_of_run (hn : 2 * n + 6 * (n / 2) < 2 ^ 31) {tr : List (Bench × BenchEvent)}
    {s : Bench} (h : (bench n).Run tr s) : ∃ o : Orders, o.Valid n ∧
      ∀ p, Assigns p o.logins → s.At p o n ∧ matched tr = o.asked.map p := by
  induction h with
  | nil => exact ⟨{}, .empty n, fun p _ => ⟨.init p n, rfl⟩⟩
  | @cons tr s s' e hrun hstep ih =>
    obtain ⟨o, hv, hat⟩ := ih
    have hmatched : matched ((s, e) :: tr) = matched tr ++ (s.matchOf e).toList := by
      rw [matched, List.filterMap_cons]
      cases s.matchOf e with
      | none => exact (List.append_nil _).symm
      | some q => exact List.reverse_cons
    rw [hmatched]
    have hstep : Bench.Step n s e s' := hstep
    cases hstep with
    | start hi hnew =>
      refine ⟨o, hv, fun p hp => ⟨(hat p hp).1.start hi hnew, ?_⟩⟩
      rw [(hat p hp).2]
      exact List.append_nil _
    | accept _ hs =>
      refine ⟨o, hv, fun p hp => ⟨(hat p hp).1.accept hs, ?_⟩⟩
      rw [(hat p hp).2]
      exact List.append_nil _
    | @serve i now req rest server' hup hs =>
      obtain ⟨tr', hserver⟩ := Bench.server_run hrun
      obtain ⟨p₀, hp₀⟩ := exists_assigns hv.nodup_logins
      have hat₀ := (hat p₀ hp₀).1
      refine ⟨o.handle i req, hv.handle (hat₀.client i) (hat₀.lt i) hup, fun p hp => ?_⟩
      have hp' : Assigns p o.logins := by
        cases req with
        | login => exact hp.of_login
        | «match» => exact Orders.logins_ask o i ▸ hp
        | _ => exact hp
      obtain ⟨hat', hasked⟩ := (hat p hp').1.serve hv hn (Formed.of_run hserver)
        (Server.keyed_of_run hserver) hp hup hs
      exact ⟨hat', by rw [hasked, (hat p hp').2]⟩
    | receive hmsg =>
      refine ⟨o, hv, fun p hp => ⟨(hat p hp).1.receive hv hn hp hmsg, ?_⟩⟩
      rw [(hat p hp).2]
      exact List.append_nil _
    | sweep hs =>
      refine ⟨o, hv, fun p hp => ?_⟩
      have hsame := (hat p hp).1.server.sweep hs
      rw [hsame, (hat p hp).2]
      exact ⟨(hat p hp).1, List.append_nil _⟩

end GameServer
