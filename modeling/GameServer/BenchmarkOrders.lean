/-
# The benchmark, described by what was handled

However the messages of the benchmark interleave, what the server has become depends on
four things alone: in which order the LoginReqs were handled, which pairs of clients the
MatchReqs formed, who waits, and in which order the ChatReqs were handled (`Orders`).
`ServerAt` gives the server's state, and `Stage` the messages sent to a client, what the
client has read and what it has written, as functions of these.

Player ids are drawn in the order of the logins, so the description is given for any
assignment `p` of ids to clients that agrees with the logins so far (`Assigns`).
-/

import GameServer.Benchmark

namespace GameServer

/-! ### The orders -/

/-- What has been handled: the clients in the order of their logins, the pairs who were given
rooms, who waits, and the clients in the order of their chats. -/
structure Orders where
  logins : List SessionId := []
  rooms : List (SessionId × SessionId) := []
  waiting : Option SessionId := none
  chats : List SessionId := []

namespace Orders

/-- The clients in rooms, in the order of their MatchReqs. -/
def seated (o : Orders) : List SessionId := o.rooms.flatMap fun x => [x.1, x.2]

/-- The clients in the order of their MatchReqs. -/
def asked (o : Orders) : List SessionId := o.seated ++ o.waiting.toList

def login (o : Orders) (i : SessionId) : Orders := { o with logins := o.logins ++ [i] }

def ask (o : Orders) (i : SessionId) : Orders :=
  match o.waiting with
  | none => { o with waiting := some i }
  | some j => { o with rooms := o.rooms ++ [(j, i)], waiting := none }

def chat (o : Orders) (i : SessionId) : Orders := { o with chats := o.chats ++ [i] }

/-- The orders after a request of client `i` was handled. -/
def handle (o : Orders) (i : SessionId) : Request → Orders
  | .login _ => o.login i
  | .match _ => o.ask i
  | .chat _ => o.chat i
  | _ => o

/-- Nobody is handled twice, and each has logged in before it is matched and has a room before
it chats. -/
structure Valid (o : Orders) (n : ℕ) : Prop where
  lt : ∀ i ∈ o.logins, i < n
  nodup_logins : o.logins.Nodup
  asked_sub : o.asked ⊆ o.logins
  nodup_asked : o.asked.Nodup
  chats_sub : o.chats ⊆ o.seated
  nodup_chats : o.chats.Nodup

variable {o : Orders} {n : ℕ} {i : SessionId}

theorem logins_ask (o : Orders) (i : SessionId) : (o.ask i).logins = o.logins := by
  unfold Orders.ask
  cases o.waiting <;> rfl

theorem chats_ask (o : Orders) (i : SessionId) : (o.ask i).chats = o.chats := by
  unfold Orders.ask
  cases o.waiting <;> rfl

theorem asked_ask (o : Orders) (i : SessionId) : (o.ask i).asked = o.asked ++ [i] := by
  unfold Orders.ask
  cases hw : o.waiting with
  | none => simp [asked, seated, hw]
  | some j => simp [asked, seated, hw]

theorem seated_sub_ask (o : Orders) (i : SessionId) : o.seated ⊆ (o.ask i).seated := by
  unfold Orders.ask
  cases o.waiting with
  | none => exact List.Subset.refl _
  | some j =>
    simp only [seated, List.flatMap_append]
    exact List.subset_append_left ..

theorem mem_seated : i ∈ o.seated ↔ ∃ (k : ℕ) (a b : SessionId), o.rooms[k]? = some (a, b) ∧ (i = a ∨ i = b) := by
  simp only [seated, List.mem_flatMap, List.mem_cons, List.not_mem_nil, or_false, Prod.exists]
  constructor
  · rintro ⟨a, b, hmem, hi⟩
    obtain ⟨k, hk⟩ := List.mem_iff_getElem?.1 hmem
    exact ⟨k, a, b, hk, hi⟩
  · rintro ⟨k, a, b, hk, hi⟩
    exact ⟨a, b, List.mem_of_getElem? hk, hi⟩

theorem length_seated (o : Orders) : o.seated.length = 2 * o.rooms.length := by
  unfold seated
  induction o.rooms with
  | nil => rfl
  | cons x rooms ih =>
    rw [List.flatMap_cons, List.length_append, ih, List.length_cons, List.length_cons,
      List.length_cons, List.length_nil]
    omega

theorem length_asked (o : Orders) :
    o.asked.length = 2 * o.rooms.length + o.waiting.toList.length := by
  rw [asked, List.length_append, length_seated]

namespace Valid

theorem empty (n : ℕ) : ({} : Orders).Valid n where
  lt _ hi := absurd hi List.not_mem_nil
  nodup_logins := List.nodup_nil
  asked_sub := List.nil_subset _
  nodup_asked := List.nodup_nil
  chats_sub := List.nil_subset _
  nodup_chats := List.nodup_nil

theorem login (h : o.Valid n) (hi : i < n) (hnew : i ∉ o.logins) : (o.login i).Valid n where
  lt j hj := by
    rcases List.mem_append.1 hj with hj | hj
    · exact h.lt j hj
    · rwa [List.mem_singleton.1 hj]
  nodup_logins := by
    rw [Orders.login, ← List.concat_eq_append]
    exact h.nodup_logins.concat hnew
  asked_sub := fun j hj => List.mem_append_left _ (h.asked_sub hj)
  nodup_asked := h.nodup_asked
  chats_sub := h.chats_sub
  nodup_chats := h.nodup_chats

theorem ask (h : o.Valid n) (hi : i ∈ o.logins) (hnew : i ∉ o.asked) :
    (o.ask i).Valid n := by
  constructor
  case lt => rw [logins_ask]; exact h.lt
  case nodup_logins => rw [logins_ask]; exact h.nodup_logins
  case asked_sub =>
    rw [logins_ask, asked_ask]
    exact List.append_subset.2 ⟨h.asked_sub, List.cons_subset.2 ⟨hi, List.nil_subset _⟩⟩
  case nodup_asked =>
    rw [asked_ask, ← List.concat_eq_append]
    exact h.nodup_asked.concat hnew
  case chats_sub => rw [chats_ask]; exact fun j hj => seated_sub_ask o i (h.chats_sub hj)
  case nodup_chats => rw [chats_ask]; exact h.nodup_chats

theorem chat (h : o.Valid n) (hi : i ∈ o.seated) (hnew : i ∉ o.chats) : (o.chat i).Valid n where
  lt := h.lt
  nodup_logins := h.nodup_logins
  asked_sub := h.asked_sub
  nodup_asked := h.nodup_asked
  chats_sub := List.append_subset.2 ⟨h.chats_sub, List.cons_subset.2 ⟨hi, List.nil_subset _⟩⟩
  nodup_chats := by
    rw [Orders.chat, ← List.concat_eq_append]
    exact h.nodup_chats.concat hnew

/-- The bounds that keep the counters in range. -/
theorem bounds (h : o.Valid n) : o.logins.length ≤ n ∧ o.asked.length ≤ o.logins.length ∧
    o.chats.length ≤ 2 * o.rooms.length := by
  refine ⟨?_, (h.nodup_asked.subperm h.asked_sub).length_le, ?_⟩
  · have hsub : o.logins ⊆ List.range n := fun i hi => List.mem_range.2 (h.lt i hi)
    have hle := (h.nodup_logins.subperm hsub).length_le
    rwa [List.length_range] at hle
  · rw [← length_seated]
    exact (h.nodup_chats.subperm h.chats_sub).length_le

theorem nodup_seated (h : o.Valid n) : o.seated.Nodup :=
  (List.nodup_append.1 h.nodup_asked).1

/-- Who has a room has logged in. -/
theorem mem_logins_of_room (h : o.Valid n) {k : ℕ} {a b : SessionId}
    (hk : o.rooms[k]? = some (a, b)) : a ∈ o.logins ∧ b ∈ o.logins := by
  have hmem : ∀ i, i = a ∨ i = b → i ∈ o.logins := fun i hi =>
    h.asked_sub (List.mem_append_left _ (mem_seated.2 ⟨k, a, b, hk, hi⟩))
  exact ⟨hmem a (.inl rfl), hmem b (.inr rfl)⟩

/-- Who waits has no room. -/
theorem not_seated_of_waiting (h : o.Valid n) (hw : o.waiting = some i) : i ∉ o.seated := by
  intro hmem
  have hdisj := (List.nodup_append.1 h.nodup_asked).2.2 i hmem i
  rw [hw] at hdisj
  exact hdisj (List.mem_singleton_self i) rfl

/-- The two clients of a room differ. -/
theorem ne_of_room (h : o.Valid n) {k : ℕ} {a b : SessionId} (hk : o.rooms[k]? = some (a, b)) :
    a ≠ b := by
  have hpair := (List.nodup_flatMap.1 h.nodup_seated).1 (a, b) (List.mem_of_getElem? hk)
  simpa using hpair

/-- No client is in two rooms. -/
theorem room_unique (h : o.Valid n) {k k' : ℕ} {a b a' b' : SessionId}
    (hk : o.rooms[k]? = some (a, b)) (hk' : o.rooms[k']? = some (a', b'))
    (hi : i = a ∨ i = b) (hi' : i = a' ∨ i = b') : k = k' := by
  have hdisj := (List.nodup_flatMap.1 h.nodup_seated).2
  obtain ⟨hlt, he⟩ := List.getElem?_eq_some_iff.1 hk
  obtain ⟨hlt', he'⟩ := List.getElem?_eq_some_iff.1 hk'
  rw [List.pairwise_iff_getElem] at hdisj
  have hno : ∀ {m m' : ℕ} {x x' : SessionId × SessionId} (hm : m < o.rooms.length)
      (hm' : m' < o.rooms.length), o.rooms[m] = x → o.rooms[m'] = x' → m < m' →
      (i = x.1 ∨ i = x.2) → ¬ (i = x'.1 ∨ i = x'.2) := by
    intro m m' x x' hm hm' hx hx' hlt hix hix'
    have hd := hdisj m m' hm hm' hlt
    rw [hx, hx'] at hd
    exact @hd i (by simpa using hix) (by simpa using hix')
  rcases lt_trichotomy k k' with hlt₁ | heq | hlt₁
  · exact absurd hi' (hno hlt hlt' he he' hlt₁ hi)
  · exact heq
  · exact absurd hi (hno hlt' hlt he' he hlt₁ hi')

/-- The counters stay in range. -/
theorem inRange (h : o.Valid n) (hn : 2 * n + 6 * (n / 2) < 2 ^ 31) :
    10000 + o.logins.length < 2 ^ 31 ∧ 1 + o.rooms.length < 2 ^ 31 ∧
      o.logins.length + o.asked.length + o.chats.length < 2 ^ 31 ∧
      o.logins.length + o.asked.length + 2 * o.rooms.length + 2 * o.chats.length < 2 ^ 31 := by
  obtain ⟨hlogins, hasked, hchats⟩ := h.bounds
  rw [length_asked] at hasked ⊢
  omega

end Valid
end Orders

/-! ### The description -/

/-- The ids that the logins have drawn. -/
def Assigns (p : SessionId → ℤ) (logins : List SessionId) : Prop :=
  ∀ (k : ℕ) (i : SessionId), logins[k]? = some i → p i = 10000 + k

section Messages

variable (p : SessionId → ℤ)

def loginOk (i : SessionId) : Response :=
  .loginResp { code := 0, playerId := p i, token := LoginService.generateToken (p i),
               message := ascii "login_success" }

def matchOk : Response := .matchResp { code := 0, message := ascii "match success" }

/-- The notification of room `1 + k`. -/
def roomOk (k : ℕ) (a b : SessionId) : Response :=
  .roomCreatedNotify { roomId := 1 + k, players := [p a, p b] }

def helloText (i : SessionId) : Bytes := ascii "hello from " ++ LoginService.toString (p i)

/-- The notification of the chat of client `i` in room `1 + k`. -/
def hello (k : ℕ) (i : SessionId) : Response :=
  .chatNotify { roomId := 1 + k, playerId := p i, text := helloText p i }

/-- The notifications of the chats in room `1 + k`. -/
def chatsIn (chats : List SessionId) (k : ℕ) (a b : SessionId) : List Response :=
  (chats.filter fun j => j = a ∨ j = b).map (hello p k)

/-- All that a client in room `1 + k` is sent. -/
def roomScript (o : Orders) (i : SessionId) (k : ℕ) (a b : SessionId) : List Response :=
  [loginOk p i, matchOk, roomOk p k a b] ++ chatsIn p o.chats k a b

/-- Where a client is, and what was sent to it. -/
inductive Stage (o : Orders) (i : SessionId) (c : Endpoint) : List Response → Prop
  | away (hi : i ∉ o.logins) (hc : c = {}) : Stage o i c []
  | calling (hi : i ∉ o.logins) (hstarted : c.started = true)
      (hup : c.up = [ClientSimulator.login]) (hrec : c.received = []) : Stage o i c []
  | greeted (hi : i ∈ o.logins) (hask : i ∉ o.asked) (hstarted : c.started = true)
      (hup : c.up = []) (hrec : c.received = []) : Stage o i c [loginOk p i]
  | asking (hi : i ∈ o.logins) (hask : i ∉ o.asked) (hstarted : c.started = true)
      (hid : c.client.playerId = p i) (hup : c.up = [.match { playerId := p i }])
      (hrec : c.received = [loginOk p i]) : Stage o i c [loginOk p i]
  | waiting (hi : o.waiting = some i) (hstarted : c.started = true)
      (hid : c.client.playerId = p i) (hup : c.up = [])
      (hrec : c.received = [loginOk p i] ∨ c.received = [loginOk p i, matchOk]) :
      Stage o i c [loginOk p i, matchOk]
  | seated (k : ℕ) (a b : SessionId) (hk : o.rooms[k]? = some (a, b)) (hi : i = a ∨ i = b)
      (hchat : i ∉ o.chats) (hstarted : c.started = true) (hid : c.client.playerId = p i)
      (hup : c.up = [])
      (hrec : c.received = [loginOk p i] ∨ c.received = [loginOk p i, matchOk]) :
      Stage o i c (roomScript p o i k a b)
  | told (k : ℕ) (a b : SessionId) (hk : o.rooms[k]? = some (a, b)) (hi : i = a ∨ i = b)
      (hchat : i ∉ o.chats) (hstarted : c.started = true) (hid : c.client.playerId = p i)
      (hup : c.up = [.chat { roomId := 1 + k, text := helloText p i }])
      (hrec : 3 ≤ c.received.length ∧ c.received <+: roomScript p o i k a b) :
      Stage o i c (roomScript p o i k a b)
  | chatted (k : ℕ) (a b : SessionId) (hk : o.rooms[k]? = some (a, b)) (hi : i = a ∨ i = b)
      (hchat : i ∈ o.chats) (hstarted : c.started = true) (hid : c.client.playerId = p i)
      (hup : c.up = [])
      (hrec : 3 ≤ c.received.length ∧ c.received <+: roomScript p o i k a b) :
      Stage o i c (roomScript p o i k a b)

/-- The server, after what has been handled. -/
structure ServerAt (o : Orders) (s : Server) : Prop where
  next : s.nextPlayerId = 10000 + o.logins.length
  session : ∀ {i ses}, s.sessions.lookup i = some ses → ses.alive = true ∧
    ses.playerId = if i ∈ o.logins then p i else 0
  accepted : ∀ {i}, i ∈ o.logins → i ∈ s.sessions
  player : ∀ {i}, i ∈ o.logins → s.playerManager.players.lookup (p i) = some i
  states : s.playerStateManager.states = ∅
  queue : s.matchQueue.queue = (o.waiting.map p).toList
  nextRoom : s.roomManager.nextRoomId = 1 + o.rooms.length
  room : ∀ {k : ℕ} {a b}, o.rooms[k]? = some (a, b) →
    s.roomManager.rooms.lookup (1 + (k : ℤ)) = some (some (Room.new (1 + (k : ℤ)) [p a, p b]))
  noRoom : ∀ {r}, r ∈ s.roomManager.rooms → ∃ k < o.rooms.length, r = 1 + (k : ℤ)
  score : ∀ {i}, i ∈ o.logins →
    (s.playerStateRepository.loadPlayerState (p i)).map PlayerState.score =
      some (if i ∈ o.chats then 1 else 0)
  recv : s.metrics.totalRecvPackets = o.logins.length + o.asked.length + o.chats.length
  send : s.metrics.totalSendPackets =
    o.logins.length + o.asked.length + 2 * o.rooms.length + 2 * o.chats.length

end Messages

/-- The server and the clients, after what has been handled. -/
structure Bench.At (p : SessionId → ℤ) (o : Orders) (n : ℕ) (s : Bench) : Prop where
  server : ServerAt p o s.server
  client : ∀ i, Stage p o i (s.client i) (s.server.sentTo i)
  lt : ∀ i, (s.client i).started = true → i < n

variable {p : SessionId → ℤ} {o : Orders} {n : ℕ}

theorem Assigns.range (h : Assigns p o.logins) {i : SessionId} (hi : i ∈ o.logins) :
    10000 ≤ p i ∧ p i < 10000 + o.logins.length := by
  obtain ⟨k, hk⟩ := List.mem_iff_getElem?.1 hi
  have hlt := (List.getElem?_eq_some_iff.1 hk).1
  have hp := h k i hk
  constructor <;> omega

theorem Assigns.of_login {i : SessionId} (h : Assigns p (o.login i).logins) : Assigns p o.logins :=
  fun k j hk => h k j ((List.getElem?_append_left (List.getElem?_eq_some_iff.1 hk).1).trans hk)

theorem Assigns.last {i : SessionId} (h : Assigns p (o.login i).logins) :
    p i = 10000 + o.logins.length :=
  h o.logins.length i (by simp [Orders.login])

/-- An id of a client is an `int`. -/
theorem toInt_id (h : Assigns p o.logins) (hv : o.Valid n) (hn : 2 * n + 6 * (n / 2) < 2 ^ 31)
    {i : SessionId} (hi : i ∈ o.logins) : toInt (p i) = p i := by
  obtain ⟨hle, hlt⟩ := h.range hi
  have := (hv.inRange hn).1
  exact toInt_of_lt (by omega) (by omega)

/-- The counters after `k` messages were sent. -/
theorem ServerMetrics.iterate_incrSendPacket (m : ServerMetrics) (k : ℕ)
    (h₀ : 0 ≤ m.totalSendPackets) (h₁ : m.totalSendPackets + k < 2 ^ 31) :
    (incrSendPacket^[k] m).totalSendPackets = m.totalSendPackets + k ∧
      (incrSendPacket^[k] m).totalRecvPackets = m.totalRecvPackets := by
  refine ⟨?_, iterate_incrSendPacket_frame (f := totalRecvPackets) (fun _ => rfl) k m⟩
  induction k with
  | zero => exact (add_zero _).symm
  | succ k ih =>
    have hsend := ih (by omega)
    rw [Function.iterate_succ_apply']
    show toInt ((incrSendPacket^[k] m).totalSendPackets + 1) = _
    rw [hsend, toInt_of_lt (by omega) (by omega)]
    omega

/-- A client that a step does not concern stays where it is; `new` is what its room is told. -/
theorem Stage.congr {o' : Orders} {i : SessionId} {c : Endpoint} {msgs : List Response}
    (h : Stage p o i c msgs) (hv : o.Valid n) (new : List Response) (hlogins : i ∈ o'.logins ↔ i ∈ o.logins)
    (hasked : i ∉ o.asked → i ∉ o'.asked) (hwaiting : o.waiting = some i → o'.waiting = some i)
    (hrooms : ∀ (k : ℕ) x, o.rooms[k]? = some x → o'.rooms[k]? = some x)
    (hchats : i ∈ o'.chats ↔ i ∈ o.chats) (hnil : i ∉ o.seated → new = [])
    (hnew : ∀ (k : ℕ) a b, o.rooms[k]? = some (a, b) → i = a ∨ i = b →
      chatsIn p o'.chats k a b = chatsIn p o.chats k a b ++ new) : Stage p o' i c (msgs ++ new) := by
  have hscript : ∀ (k : ℕ) a b, o.rooms[k]? = some (a, b) → i = a ∨ i = b →
      roomScript p o' i k a b = roomScript p o i k a b ++ new := fun k a b hk hi => by
    rw [roomScript, hnew k a b hk hi, ← List.append_assoc]
    rfl
  cases h with
  | away hi hc =>
    have hout : i ∉ o.seated := fun hs => hi (hv.asked_sub (List.mem_append_left _ hs))
    rw [hnil hout]
    exact .away (mt hlogins.1 hi) hc
  | calling hi hstarted hup hrec =>
    have hout : i ∉ o.seated := fun hs => hi (hv.asked_sub (List.mem_append_left _ hs))
    rw [hnil hout]
    exact .calling (mt hlogins.1 hi) hstarted hup hrec
  | greeted hi hask hstarted hup hrec =>
    rw [hnil fun hs => hask (List.mem_append_left _ hs)]
    exact .greeted (hlogins.2 hi) (hasked hask) hstarted hup hrec
  | asking hi hask hstarted hid hup hrec =>
    rw [hnil fun hs => hask (List.mem_append_left _ hs)]
    exact .asking (hlogins.2 hi) (hasked hask) hstarted hid hup hrec
  | waiting hi hstarted hid hup hrec =>
    rw [hnil (hv.not_seated_of_waiting hi)]
    exact .waiting (hwaiting hi) hstarted hid hup hrec
  | seated k a b hk hi hchat hstarted hid hup hrec =>
    rw [← hscript k a b hk hi]
    exact .seated k a b (hrooms k _ hk) hi (mt hchats.1 hchat) hstarted hid hup hrec
  | told k a b hk hi hchat hstarted hid hup hrec =>
    rw [← hscript k a b hk hi]
    refine .told k a b (hrooms k _ hk) hi (mt hchats.1 hchat) hstarted hid hup ⟨hrec.1, ?_⟩
    rw [hscript k a b hk hi]
    exact hrec.2.trans (List.prefix_append ..)
  | chatted k a b hk hi hchat hstarted hid hup hrec =>
    rw [← hscript k a b hk hi]
    refine .chatted k a b (hrooms k _ hk) hi (hchats.2 hchat) hstarted hid hup ⟨hrec.1, ?_⟩
    rw [hscript k a b hk hi]
    exact hrec.2.trans (List.prefix_append ..)

end GameServer
