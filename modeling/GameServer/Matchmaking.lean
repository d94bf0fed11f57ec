/-
# Who is matched

`handle_match` queues the player that the request names, while the close callback takes
the player of the session out of the queue.  The protocol document says that the server
goes by `session.player_id()` and checks that the player is logged in; the code does
neither.  So an id that nobody has, or somebody else's, can be queued, and `create_room`,
which calls through what `players_` has for each of the two, throws.

`Server.Matches` is what the handling of a MatchReq should do, and `Core.QueueBound` what
should hold of the queue in between.  `matching_iff` says for which runs both hold
throughout: those where each MatchReq names the player of its own session, and no session
is given another player while its own is queued (`Server.KeepsMatching`).
-/

import GameServer.Binding
import GameServer.Formation
import GameServer.Registration

namespace GameServer

/-- Every id in the queue is the `player_id_` of an open session. -/
def Core.QueueBound (c : Core) : Prop := ∀ p ∈ c.matchQueue.queue, ∃ sid, c.Bound sid p

/-- What the handling of a MatchReq on the session should lead to, where `players` are the
players who are given a room: on an open session nobody joins but the player bound to it,
nobody is lost, and each of `players` is sent one notification, on an open session bound
to the player. -/
structure Server.Matched (s s' : Server) (sid : SessionId) (players : List PlayerId) : Prop where
  joined : s.core.Open sid → ∀ x, x ∈ players ∨ x ∈ s'.matchQueue.queue →
    x ∈ s.matchQueue.queue ∨ x ≠ 0 ∧ s.core.Bound sid x
  kept : ∀ x ∈ s.matchQueue.queue, x ∈ players ∨ x ∈ s'.matchQueue.queue
  sent : ∃ reply, s'.sent = s.sent ++ (sid, .matchResp reply) :: players.map fun x =>
    (s.sessionOf x, .roomCreatedNotify { roomId := s.roomManager.nextRoomId, players := players })
  live : ∀ x ∈ players, s.core.Bound (s.sessionOf x) x

/-- A MatchReq is handled, without a fault, as it should be. -/
def Server.Matches (s : Server) : Event → Prop
  | .request sid (.match req) now => ∃ s' players,
      server.step s (.request sid (.match req) now) s' ∧ s.Matched s' sid players
  | _ => True

/-- A MatchReq is refused, or names the player of its session; on a session that has been
closed meanwhile it may name any player who has an open session. -/
def Server.MatchesOwn (s : Server) (sid : SessionId) (req : MatchReq) : Prop :=
  toInt req.playerId ≤ 0 ∨ toInt req.playerId ∈ s.matchQueue.queue ∨
    s.core.Bound sid (toInt req.playerId) ∨
      ¬ s.core.Open sid ∧ ∃ sid', s.core.Bound sid' (toInt req.playerId)

/-- The condition on an event: a login or a reconnect is not accepted on an open session whose
player is queued, and a MatchReq names the player of its session. -/
def Server.KeepsMatching (s : Server) (e : Event) : Prop :=
  (∀ sid p, (s.act e).introduces sid → s.core.Bound sid p → p ∉ s.matchQueue.queue) ∧
    ∀ sid req now, e = .request sid (.match req) now → s.MatchesOwn sid req

instance (s : Server) (sid : SessionId) (req : MatchReq) : Decidable (s.MatchesOwn sid req) :=
  have : Decidable (∃ sid', s.core.Bound sid' (toInt req.playerId)) :=
    decidable_of_iff (∃ sid' ∈ s.sessions.keys, s.core.Bound sid' (toInt req.playerId))
      ⟨fun ⟨sid', _, hb⟩ => ⟨sid', hb⟩, fun ⟨sid', ses, hses, hb⟩ =>
        ⟨sid', Finmap.mem_keys.2 (Finmap.mem_of_lookup_eq_some hses), ses, hses, hb⟩⟩
  inferInstanceAs (Decidable (_ ∨ _ ∨ _ ∨ ¬ _ ∧ _))

/-- Only the session that the act gives a player matters. -/
def Core.decidableKeepsQueued (c : Core) : (a : Act) →
    Decidable (∀ sid p, a.introduces sid → c.Bound sid p → p ∉ c.matchQueue.queue)
  | .login sid | .resume sid _ _ =>
    decidable_of_iff (∀ p ∈ c.matchQueue.queue, ¬ c.Bound sid p)
      ⟨fun h _ p e hb hp => h p hp (e ▸ hb), fun h p hp hb => h sid p rfl hb hp⟩
  | .idle | .accept _ | .wait _ | .room _ _ | .close _ _ | .release _ | .sweep _ _ =>
    isTrue fun _ _ h => h.elim

instance (s : Server) (e : Event) : Decidable (s.KeepsMatching e) :=
  have : Decidable (∀ sid p, (s.act e).introduces sid → s.core.Bound sid p →
      p ∉ s.matchQueue.queue) := s.core.decidableKeepsQueued (s.act e)
  have : Decidable (∀ sid req now, e = .request sid (.match req) now → s.MatchesOwn sid req) :=
    match e with
    | .request sid (.match req) now =>
      decidable_of_iff (s.MatchesOwn sid req)
        ⟨fun h _ _ _ he => by cases he; exact h, fun h => h _ _ _ rfl⟩
    | .request _ (.login _) _ | .request _ (.chat _) _ | .request _ (.heartbeat _) _
    | .request _ (.reconnect _) _ | .request _ (.ranking _ _) _ | .request _ (.unregistered _) _
    | .accept .. | .close .. | .release _ | .sweep .. => isTrue fun _ _ _ he => by cases he
  inferInstanceAs (Decidable (_ ∧ _))

/-! ### The queue -/

namespace Core

variable {c c' : Core}

/-- A session that is given a player loses the one it has, and nobody else has that one. -/
theorem queueBound_rebind (hw : WellBound c) (hf : Formed c) {sid : SessionId} {p₀ : PlayerId}
    {token : Bytes} (hs : c'.sessions = c.sessions.modify sid fun ses =>
      { ses with playerId := p₀, token := token }) (hq : c'.matchQueue = c.matchQueue)
    (hp₀ : p₀ ≠ 0 → ∀ sid', ¬ c.Bound sid' p₀) (h : c.QueueBound) :
    c'.QueueBound ↔ ∀ p, c.Bound sid p → p ∉ c.matchQueue.queue := by
  unfold QueueBound
  rw [hq]
  constructor
  · intro h' p hb hp
    have hp0 : p ≠ 0 := (hf.queue.pos p hp).ne'
    obtain ⟨sid', hb'⟩ := h' p hp
    rw [bound_rebind hs] at hb'
    split_ifs at hb' with he
    · obtain ⟨-, rfl⟩ := hb'
      exact hp₀ hp0 sid hb
    · exact he (hw.bound_unique hp0 hb' hb)
  · intro hC p hp
    obtain ⟨sid', hb⟩ := h p hp
    refine ⟨sid', (bound_rebind hs sid' p).2 ?_⟩
    rw [if_neg]
    · exact hb
    · rintro rfl
      exact hC p hb hp

theorem QueueBound.close (h : c.QueueBound) (hf : Formed c) {sid : SessionId} {ses : Session}
    (hses : c.sessions.lookup sid = some ses)
    (hs : c'.sessions = c.sessions.modify sid fun ses => { ses with closed := true })
    (hq : c'.matchQueue = c.matchQueue.leave ses.playerId) : c'.QueueBound := by
  intro p hp
  rw [hq, hf.queue.mem_leave] at hp
  obtain ⟨hne, hp⟩ := hp
  obtain ⟨sid', hb⟩ := h p hp
  refine ⟨sid', (bound_close hs sid' p).2 ⟨?_, hb⟩⟩
  rintro rfl
  obtain ⟨ses', hses', -, rfl⟩ := hb
  exact hne (congrArg Session.playerId (Option.some.inj (hses'.symm.trans hses)))

/-- **The queue after a step that is no MatchReq.** -/
theorem queueBound_iff {a : Act} (hw : WellBound c) (hf : Formed c) (h : c.QueueBound)
    (hs : CoreStep c a c') (hwait : ∀ p, a ≠ .wait p) (hroom : ∀ p ps, a ≠ .room p ps) :
    c'.QueueBound ↔ ∀ sid p, a.introduces sid → c.Bound sid p → p ∉ c.matchQueue.queue := by
  have htriv : c'.QueueBound → (∀ sid, ¬ a.introduces sid) →
      (c'.QueueBound ↔ ∀ sid p, a.introduces sid → c.Bound sid p → p ∉ c.matchQueue.queue) :=
    fun h' hno => iff_of_true h' fun sid _ hi => absurd hi (hno sid)
  cases hs with
  | idle => exact htriv h fun _ => id
  | @accept sid hsid =>
    refine htriv (fun p hp => ?_) fun _ => id
    obtain ⟨sid', hb⟩ := h p hp
    refine ⟨sid', (bound_insert rfl sid' p).2 ?_⟩
    rw [if_neg]
    · exact hb
    · rintro rfl
      obtain ⟨ses, hses, -⟩ := hb
      exact hsid (Finmap.mem_of_lookup_eq_some hses)
  | @login sid _ =>
    refine Iff.trans (queueBound_rebind hw hf rfl rfl (fun _ sid' hb => ?_) h) ?_
    · exact hw.next_not_known (hw.bound_known hb)
    · exact ⟨fun hC sid' p hi => hi ▸ hC p, fun hC p => hC sid p rfl⟩
  | wait _ _ _ => exact absurd rfl (hwait _)
  | room _ _ _ _ => exact absurd rfl (hroom _ _)
  | @resume sid p token st rm _ hst _ =>
    refine Iff.trans (queueBound_rebind hw hf rfl rfl (fun hp sid' => ?_) h) ?_
    · exact hw.not_bound_of_offline hp ⟨st, hst.1, hst.2.2⟩
    · exact ⟨fun hC sid' q hi => hi ▸ hC q, fun hC q => hC sid q rfl⟩
  | close hses _ _ _ => exact htriv (h.close hf hses rfl rfl) fun _ => id
  | release _ _ _ =>
    refine htriv (fun p hp => ?_) fun _ => id
    obtain ⟨sid', hb⟩ := h p hp
    exact ⟨sid', (bound_release rfl sid' p).2 hb⟩
  | sweep _ _ hfold =>
    refine htriv ?_ fun _ => id
    rw [sweep_frame hfold]
    exact h

end Core

/-! ### One request -/

namespace Server

/-- The notifications name the players they are for. -/
theorem eq_of_notified {ps ps' : List PlayerId} {f : PlayerId → SessionId} {roomId : RoomId}
    (h : (ps.map fun x => (f x, Response.roomCreatedNotify { roomId := roomId, players := ps })) =
      ps'.map fun x => (f x, .roomCreatedNotify { roomId := roomId, players := ps' })) :
    ps = ps' := by
  cases ps with
  | nil => exact (List.map_eq_nil_iff.1 h.symm).symm
  | cons p ps =>
    cases ps' with
    | nil => cases h
    | cons p' ps' =>
      have hmsg := (Prod.mk.inj (List.cons.inj h).1).2
      exact congrArg RoomCreatedNotify.players (Response.roomCreatedNotify.inj hmsg)

/-- A MatchReq changes no session. -/
theorem sessions_handleMatch {s s' : Server} {sid : SessionId} {req : MatchReq}
    (h : MatchService.handleMatch s sid req = .ok s') : s'.sessions = s.sessions := by
  rcases handleMatch_ok rfl h with ⟨-, reason, rfl⟩ | ⟨-, -, ⟨-, rfl⟩ | ⟨-, -, rfl⟩⟩ <;> rfl

/-- **The queue and the messages after a MatchReq**, which was refused or let its player join. -/
theorem step_match {s s' : Server} {sid : SessionId} {req : MatchReq} {now : Instant} {p : PlayerId}
    (hp : toInt req.playerId = p) (h : server.step s (.request sid (.match req) now) s') :
    ∃ reply,
      ((p ≤ 0 ∨ p ∈ s.matchQueue.inQueue) ∧ s'.matchQueue = s.matchQueue ∧
        s'.sent = s.sent ++ [(sid, .matchResp reply)]) ∨
      0 < p ∧ p ∉ s.matchQueue.inQueue ∧ s'.matchQueue = (s.core.popped p).2 ∧
        s'.sent = s.sent ++ (sid, .matchResp reply) :: (s.core.popped p).1.map fun x =>
          (s.sessionOf x, .roomCreatedNotify
            { roomId := s.roomManager.nextRoomId, players := (s.core.popped p).1 }) := by
  have h : MatchService.handleMatch (s.received sid now) sid req = .ok s' := h.2
  rcases handleMatch_ok hp h with ⟨href, reason, rfl⟩ | ⟨hpos, hnew, ⟨he, rfl⟩ | ⟨-, -, rfl⟩⟩
  · exact ⟨_, .inl ⟨href, rfl, rfl⟩⟩
  · have he : (s.core.popped p).1 = [] := he
    refine ⟨{ code := 0, message := ascii "match success" }, .inr ⟨hpos, hnew, rfl, ?_⟩⟩
    rw [he]
    rfl
  · refine ⟨{ code := 0, message := ascii "match success" }, .inr ⟨hpos, hnew, rfl, ?_⟩⟩
    exact List.append_assoc ..

/-- The session that `players_` has for a player with an open session is that session. -/
theorem bound_sessionOf {s : Server} (hw : WellBound s.core) {p : PlayerId} (hp : p ≠ 0)
    (h : ∃ sid, s.core.Bound sid p) : s.core.Bound (s.sessionOf p) p := by
  obtain ⟨sid, hb⟩ := h
  have hlk : s.playerManager.players.lookup p = some sid := hw.bound hb hp
  rwa [sessionOf, hlk, Option.getD_some]

/-- Everybody who is popped has an open session, if the queue is bound and the player who
joins has one; `players_` has that session. -/
theorem bound_of_popped {s : Server} (hw : WellBound s.core) (hf : Formed s.core)
    (hq : s.core.QueueBound) {p : PlayerId} (hp : 0 < p) (hnew : p ∉ s.matchQueue.inQueue)
    (hown : ∃ sid, s.core.Bound sid p) :
    ∀ x ∈ (s.core.popped p).1, x ≠ 0 ∧ s.core.Bound (s.sessionOf x) x := by
  intro x hx
  obtain ⟨hpos, rfl | hmem⟩ := (hf.popped hp hnew).2.1 x hx
  · exact ⟨hpos.ne', bound_sessionOf hw hpos.ne' hown⟩
  · exact ⟨hpos.ne', bound_sessionOf hw hpos.ne' (hq x hmem)⟩

/-- **A MatchReq that names the player of its session** is handled as it should be, while the
queue is bound. -/
theorem matches_of_matchesOwn {s : Server} (hw : WellBound s.core) (hf : Formed s.core)
    (hopen : ∀ sid, s.core.Open sid → s.core.Alive sid) (hq : s.core.QueueBound)
    {sid : SessionId} {req : MatchReq} {now : Instant} (halive : s.alive sid)
    (h : s.MatchesOwn sid req) : s.Matches (.request sid (.match req) now) := by
  obtain ⟨p, hp⟩ : ∃ p, toInt req.playerId = p := ⟨_, rfl⟩
  rw [MatchesOwn, hp] at h
  have hpopped : 0 < p → p ∉ s.matchQueue.inQueue → ∀ x ∈ (s.core.popped p).1,
      x ≠ 0 ∧ s.core.Bound (s.sessionOf x) x := by
    intro hpos hnew
    refine bound_of_popped hw hf hq hpos hnew ?_
    rcases h with hle | hmem | hb | ⟨-, hb⟩
    · exact absurd hpos (not_lt.2 hle)
    · exact absurd ((hf.queue.mem_inQueue p).2 hmem) hnew
    · exact ⟨sid, hb⟩
    · exact hb
  -- So the handler returns: everybody it looks up resolves.
  obtain ⟨s', hs'⟩ := handleMatch_of_resolves (s := s.received sid now) sid hp
    fun hpos hnew x hx =>
      have ⟨hx0, hb⟩ := hpopped hpos hnew x hx
      ⟨_, hw.bound hb hx0, hopen _ hb.isOpen⟩
  have hstep : server.step s (.request sid (.match req) now) s' := ⟨⟨halive, trivial⟩, hs'⟩
  obtain ⟨reply, ⟨-, hqueue, hsent⟩ | ⟨hpos, hnew, hqueue, hsent⟩⟩ := step_match hp hstep
  · refine ⟨s', [], hstep, fun _ x hx => ?_, fun x hx => .inr (hqueue ▸ hx), ⟨reply, hsent⟩,
      fun x hx => absurd hx List.not_mem_nil⟩
    exact .inl (hqueue ▸ hx.resolve_left List.not_mem_nil)
  · obtain ⟨-, hsub, -, hrest⟩ := hf.popped hpos hnew
    refine ⟨s', (s.core.popped p).1, hstep, fun hsid x hx => ?_, fun x hx => ?_, ⟨reply, hsent⟩,
      fun x hx => (hpopped hpos hnew x hx).2⟩
    · have hx : x = p ∨ x ∈ s.matchQueue.queue := by
        rcases hx with hx | hx
        · exact (hsub x hx).2
        · rw [hqueue] at hx
          exact ((hrest x).1 hx).2
      -- Who joins is `p`, which an open session may name only for itself.
      rcases hx with rfl | hx
      · rcases h with hle | hmem | hb | ⟨hclosed, -⟩
        · exact absurd hpos (not_lt.2 hle)
        · exact .inl hmem
        · exact .inr ⟨hpos.ne', hb⟩
        · exact absurd hsid hclosed
      · exact .inl hx
    · by_cases hx' : x ∈ (s.core.popped p).1
      · exact .inl hx'
      · rw [hqueue]
        exact .inr ((hrest x).2 ⟨hx', .inr hx⟩)

/-- Who is neither refused nor waiting already is given a room or waits afterwards. -/
theorem joined_of_match {s s' : Server} {sid : SessionId} {req : MatchReq} {now : Instant}
    {players : List PlayerId} {p : PlayerId} (hf : Formed s.core) (hp : toInt req.playerId = p)
    (hs : server.step s (.request sid (.match req) now) s') (hm : s.Matched s' sid players) :
    p ≤ 0 ∨ p ∈ s.matchQueue.queue ∨ p ∈ players ∨ p ∈ s'.matchQueue.queue := by
  obtain ⟨reply, ⟨hle | hmem, -⟩ | ⟨hpos, hnew, hqueue, hsent⟩⟩ := step_match hp hs
  · exact .inl hle
  · exact .inr (.inl ((hf.queue.mem_inQueue p).1 hmem))
  · obtain ⟨reply', hsent'⟩ := hm.sent
    rw [hsent] at hsent'
    have heq := eq_of_notified (List.cons.inj (List.append_cancel_left hsent')).2
    by_cases hpop : p ∈ (s.core.popped p).1
    · exact .inr (.inr (.inl (heq ▸ hpop)))
    · rw [hqueue]
      exact .inr (.inr (.inr (((hf.popped hpos hnew).2.2.2 p).2 ⟨hpop, .inl rfl⟩)))

/-- **A MatchReq that is handled as it should be**, and leaves a queue that is bound, names the
player of its session. -/
theorem matchesOwn_of_matches {s : Server} (hf : Formed s.core) {sid : SessionId} {req : MatchReq}
    {now : Instant} (h : s.Matches (.request sid (.match req) now))
    (hq : ¬ s.core.Open sid → ∀ s', server.step s (.request sid (.match req) now) s' →
      s'.core.QueueBound) : s.MatchesOwn sid req := by
  obtain ⟨s', players, hs, hm⟩ := h
  rcases joined_of_match hf rfl hs hm with hle | hmem | hjoin
  · exact .inl hle
  · exact .inr (.inl hmem)
  · by_cases hopen : s.core.Open sid
    · rcases hm.joined hopen _ hjoin with hmem | ⟨-, hb⟩
      · exact .inr (.inl hmem)
      · exact .inr (.inr (.inl hb))
    · refine .inr (.inr (.inr ⟨hopen, ?_⟩))
      rcases hjoin with hpl | hmem
      · exact ⟨_, hm.live _ hpl⟩
      · obtain ⟨sid', hb⟩ := hq hopen s' hs _ hmem
        have hsame : s'.sessions = s.sessions :=
          sessions_handleMatch (s := s.received sid now) hs.2
        exact ⟨sid', (Core.bound_congr hsame ..).1 hb⟩

/-- Nobody joins but somebody with an open session. -/
theorem queueBound_match {s s' : Server} (hf : Formed s.core) (hq : s.core.QueueBound)
    {sid : SessionId} {req : MatchReq} {now : Instant}
    (hs : server.step s (.request sid (.match req) now) s') (h : s.MatchesOwn sid req) :
    s'.core.QueueBound := by
  have hsame : s'.core.sessions = s.core.sessions :=
    sessions_handleMatch (s := s.received sid now) hs.2
  intro x hx
  suffices hb : ∃ sid', s.core.Bound sid' x by
    obtain ⟨sid', hb⟩ := hb
    exact ⟨sid', (Core.bound_congr hsame ..).2 hb⟩
  have hx : x ∈ s'.matchQueue.queue := hx
  obtain ⟨reply, ⟨-, hqueue, -⟩ | ⟨hpos, hnew, hqueue, -⟩⟩ := step_match rfl hs
  · rw [hqueue] at hx
    exact hq x hx
  · rw [hqueue] at hx
    rcases (((hf.popped hpos hnew).2.2.2 x).1 hx).2 with rfl | hx
    · rcases h with hle | hmem | hb | ⟨-, hb⟩
      · exact absurd hpos (not_lt.2 hle)
      · exact hq _ hmem
      · exact ⟨sid, hb⟩
      · exact hb
    · exact hq x hx

/-- **One step**, from a state whose queue is bound. -/
theorem queueBound_and_matches_iff {s s' : Server} {e : Event} (hw : WellBound s.core)
    (hf : Formed s.core) (hopen : ∀ sid, s.core.Open sid → s.core.Alive sid)
    (hq : s.core.QueueBound) (hs : server.step s e s') :
    s'.core.QueueBound ∧ s.Matches e ↔ s.KeepsMatching e := by
  by_cases hmatch : ∃ sid req now, e = .request sid (.match req) now
  · obtain ⟨sid, req, now, rfl⟩ := hmatch
    have hno : ∀ sid', ¬ (s.act (.request sid (.match req) now)).introduces sid' := fun sid' hi =>
      absurd (introduces_of_act hi) (by simp [Event.introduces])
    constructor
    · rintro ⟨hq', hm⟩
      refine ⟨fun sid' _ hi => absurd hi (hno sid'), fun sid' req' now' he => ?_⟩
      obtain ⟨rfl, hreq, rfl⟩ := Event.request.inj he
      obtain rfl := Request.match.inj hreq
      refine matchesOwn_of_matches hf hm fun _ s₁ hs₁ => ?_
      rw [← Except.ok.inj (hs.2.symm.trans hs₁.2)]
      exact hq'
    · rintro ⟨-, hown⟩
      have hown := hown sid req now rfl
      exact ⟨queueBound_match hf hq hs hown, matches_of_matchesOwn hw hf hopen hq hs.1.1 hown⟩
  · have hact := s.act_inv e
    have hiff := Core.queueBound_iff hw hf hq (step_core hs)
      (fun p ha => by
        rw [ha] at hact
        obtain ⟨sid, req, now, rfl, -⟩ := hact
        exact hmatch ⟨sid, req, now, rfl⟩)
      fun p ps ha => by
        rw [ha] at hact
        obtain ⟨sid, req, now, rfl, -⟩ := hact
        exact hmatch ⟨sid, req, now, rfl⟩
    have hm : s.Matches e := by
      unfold Matches
      split
      · exact absurd ⟨_, _, _, rfl⟩ hmatch
      · trivial
    exact ⟨fun h => ⟨hiff.1 h.1, fun sid req now he => absurd ⟨sid, req, now, he⟩ hmatch⟩,
      fun h => ⟨hiff.2 h.1, hm⟩⟩

end Server

/-! ### Runs -/

/-- **When matching acts for the requesting player.**  As long as fewer than `2 ^ 31 - 10000`
logins were accepted, take any run and one more MatchReq, on any open session.  Every queued id is
the `player_id_` of an open session in every state of the run, and every MatchReq of it and the
one more are handled without a fault and as they should be, exactly when every event meets the
condition. -/
theorem matching_iff {tr : History} {s : Server} (h : server.Run tr s)
    (hn : tr.logins < 2 ^ 31 - 10000) {sid : SessionId} (hsid : s.core.Open sid) (req : MatchReq)
    (now : Instant) :
    ((∀ t ∈ Transition.System.visited tr s, t.core.QueueBound) ∧
        ∀ x ∈ (s, Event.request sid (.match req) now) :: tr, x.1.Matches x.2) ↔
      ∀ x ∈ (s, Event.request sid (.match req) now) :: tr, x.1.KeepsMatching x.2 := by
  have hrun : ((∀ t ∈ Transition.System.visited tr s, t.core.QueueBound) ∧
      ∀ x ∈ tr, x.1.Matches x.2) ↔ ∀ x ∈ tr, x.1.KeepsMatching x.2 := by
    refine Transition.System.Run.forall_visited_and_iff (P := fun t : Server => t.core.QueueBound)
      (fun p hp => absurd hp List.not_mem_nil) h fun {tr' t e t'} hsuf hrun hq hs => ?_
    have hle : History.logins tr' ≤ tr.logins :=
      logins_le_of_suffix ((List.suffix_cons ..).trans hsuf)
    exact Server.queueBound_and_matches_iff (WellBound.of_run hrun (lt_of_le_of_lt hle hn))
      (Formed.of_run hrun) (fun sid' => alive_of_open hrun) hq hs
  have hf := Formed.of_run h
  rw [List.forall_mem_cons, List.forall_mem_cons, and_left_comm, hrun]
  refine and_congr_left fun hC => ?_
  have hq : s.core.QueueBound := (hrun.2 hC).1 s (List.mem_cons_self ..)
  constructor
  · intro hm
    refine ⟨fun sid' _ hi => absurd (Server.introduces_of_act hi) (by simp [Event.introduces]),
      fun sid' req' now' he => ?_⟩
    obtain ⟨rfl, hreq, rfl⟩ := Event.request.inj he
    obtain rfl := Request.match.inj hreq
    exact Server.matchesOwn_of_matches hf hm fun hclosed => absurd hsid hclosed
  · rintro ⟨-, hown⟩
    have hown := hown sid req now rfl
    exact Server.matches_of_matchesOwn (WellBound.of_run h hn) hf (fun sid' => alive_of_open h) hq
      ((s.alive_iff sid).2 (alive_of_open h hsid)) hown

/-- Both players ask to be matched, each on its own session: the second MatchReq creates the room and
both are notified. -/
theorem matching_iff_own : ∃ tr s s', server.Run tr s ∧
    server.step s (.request 1 (.match { playerId := 10001 }) {}) s' ∧
    s.matchQueue.queue = [10000] ∧ s'.matchQueue.queue = [] ∧
    s'.sent.drop s.sent.length = [(1, .matchResp { code := 0, message := ascii "match success" }),
      (0, .roomCreatedNotify { roomId := 1, players := [10000, 10001] }),
      (1, .roomCreatedNotify { roomId := 1, players := [10000, 10001] })] ∧
    (∀ t ∈ Transition.System.visited tr s, t.core.QueueBound) ∧
    ∀ x ∈ (s, Event.request 1 (.match { playerId := 10001 }) {}) :: tr, x.1.Matches x.2 := by
  obtain ⟨tr, s, s', h, hs, hn, hsid, hq, hq', hsent, hkeeps⟩ := Server.exists_step
    (Q := fun tr s s' => tr.logins < 2 ^ 31 - 10000 ∧ s.core.Open 1 ∧
      s.matchQueue.queue = [10000] ∧ s'.matchQueue.queue = [] ∧
      s'.sent.drop s.sent.length =
        [(1, .matchResp { code := 0, message := ascii "match success" }),
          (0, .roomCreatedNotify { roomId := 1, players := [10000, 10001] }),
          (1, .roomCreatedNotify { roomId := 1, players := [10000, 10001] })] ∧
      ∀ x ∈ (s, Event.request 1 (.match { playerId := 10001 }) {}) :: tr, x.1.KeepsMatching x.2)
    (Server.pairUp.take 5) (.request 1 (.match { playerId := 10001 }) {}) (by decide +kernel)
  obtain ⟨hbound, hmatches⟩ := (matching_iff h hn hsid { playerId := 10001 } {}).2 hkeeps
  exact ⟨tr, s, s', h, hs, hq, hq', hsent, hbound, hmatches⟩

/-- **Whoever asks names whom it likes.**  A session that never logged in names player 5: it is
queued, though nobody has that id, and the next MatchReq throws. -/
theorem matched_for_nobody : ∃ tr s s', server.Run tr s ∧ (∀ x ∈ tr, x.2.onOpen x.1) ∧
    s.core.Open 0 ∧ (s.session 0).playerId = 0 ∧
    server.step s (.request 0 (.match { playerId := 5 }) {}) s' ∧ s'.matchQueue.queue = [5] ∧
    ¬ s.Matches (.request 0 (.match { playerId := 5 }) {}) ∧ ¬ s'.core.QueueBound ∧
    faultOf (s'.step (.request 0 (.match { playerId := 6 }) {})) = some .outOfRange := by
  obtain ⟨tr, s, s', h, hs, hopen, hsid, hp, hq, hno, hq', hses, hfault⟩ := Server.exists_step
    (Q := fun tr s s' => (∀ x ∈ tr, x.2.onOpen x.1) ∧ s.core.Open 0 ∧ (s.session 0).playerId = 0 ∧
      s.matchQueue.queue = [] ∧ ¬ s.core.Bound 0 5 ∧ s'.matchQueue.queue = [5] ∧
      s'.sessions = (∅ : Table SessionId Session).insert 0 {} ∧
      faultOf (s'.step (.request 0 (.match { playerId := 6 }) {})) = some .outOfRange)
    [.accept 0 {}] (.request 0 (.match { playerId := 5 }) {}) (by decide +kernel)
  refine ⟨tr, s, s', h, hopen, hsid, hp, hs, hq', fun hm => ?_, fun hbound => ?_, hfault⟩
  · rcases Server.matchesOwn_of_matches (Formed.of_run h) hm fun hc => absurd hsid hc with
      hle | hmem | hb | ⟨hc, -⟩
    · exact absurd hle (by decide)
    · rw [hq] at hmem
      cases hmem
    · exact hno hb
    · exact hc hsid
  · have h5 : (5 : PlayerId) ∈ s'.core.matchQueue.queue := by
      rw [show s'.core.matchQueue.queue = [5] from hq']
      exact List.mem_cons_self ..
    obtain ⟨sid, ses, hlk, -, hp5⟩ := hbound 5 h5
    rw [show s'.core.sessions = _ from hses, Table.lookup_insert'] at hlk
    split_ifs at hlk
    · rw [← Option.some.inj hlk] at hp5
      exact absurd hp5 (by decide)
    · cases hlk

end GameServer
