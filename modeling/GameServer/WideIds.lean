/-
# Ids that are no `int`

`proto/message.proto` gives ids and `top_n` as `int64`, and the handlers convert them to `int`
before they look at them, so a request is handled as if it named the id that is congruent
modulo `2 ^ 32` (`handlePacket_narrowed`).  The checks, such as that of `handle_match` for a
positive id, are made on what is left.  A request for an id that is no `int` should have no
effect, since nobody has that id (`Server.IgnoresWideId`); it has none exactly when the handler
declines the congruent one (`wide_ids_iff`).  A chat is never declined: it goes to the room with
the congruent id, or the handler fails on a null pointer.  A `top_n` of `2 ^ 31` or more should
be enough for all players, and is when its residue is.
-/

import GameServer.Ranking
import GameServer.Refusals

namespace GameServer

/-- The value is no `int`. -/
def Wide (id : ℤ) : Prop := id < -2 ^ 31 ∨ 2 ^ 31 ≤ id

/-- The id that a request names, of a player or of a room. -/
def Request.namedId : Request → Option ℤ
  | .match req => some req.playerId
  | .chat req => some req.roomId
  | .reconnect req => some req.playerId
  | .login _ | .heartbeat _ | .ranking _ _ | .unregistered _ => none

/-- The request with its id, or `top_n`, narrowed to `int`. -/
def Request.narrowed : Request → Request
  | .match req => .match { playerId := toInt req.playerId }
  | .chat req => .chat { req with roomId := toInt req.roomId }
  | .reconnect req => .reconnect { req with playerId := toInt req.playerId }
  | .ranking req players => .ranking { topN := toInt req.topN } players
  | .login req => .login req
  | .heartbeat req => .heartbeat req
  | .unregistered msgId => .unregistered msgId

namespace Server

/-- Nothing changed of the queue, the rooms, the bindings and the runtime states, and no chat
was handed to a session. -/
def Undisturbed (s s' : Server) : Prop :=
  s'.core = s.core ∧ ∀ x ∈ s'.sent.drop s.sent.length, ∀ n, x.2 ≠ .chatNotify n

/-- A request with an id that is no `int` is handled and has no effect. -/
def IgnoresWideId (s : Server) (sid : SessionId) (req : Request) (now : Instant) : Prop :=
  ∀ id ∈ req.namedId, Wide id → ∃ s', s.handlePacket sid req now = .ok s' ∧ s.Undisturbed s'

/-- **A request is handled as the one that names the congruent id.** -/
theorem handlePacket_narrowed (s : Server) (sid : SessionId) (req : Request) (now : Instant) :
    s.handlePacket sid req now = s.handlePacket sid req.narrowed now := by
  cases req with
  | «match» req =>
    simp only [handlePacket, dispatch, Request.narrowed, MatchService.handleMatch, toInt_toInt]
  | chat req =>
    simp only [handlePacket, dispatch, Request.narrowed, ChatService.handleChat, toInt_toInt]
  | reconnect req =>
    simp only [handlePacket, dispatch, Request.narrowed, ReconnectService.handleReconnect,
      toInt_toInt]
  | ranking req players =>
    simp only [handlePacket, dispatch, Request.narrowed, RankingService.handleRankingReq,
      toInt_toInt]
  | login req | heartbeat req | unregistered msgId => rfl

/-- A refusal is no chat. -/
theorem OnlyFails.undisturbed {s s' : Server} {sid : SessionId} (h : s.OnlyFails sid s') :
    s.Undisturbed s' := by
  refine ⟨h.keeps.core, fun x hx n hn => ?_⟩
  rcases h.sent with hsent | ⟨reply, hfails, hsent⟩
  · rw [hsent, List.drop_length] at hx
    exact absurd hx List.not_mem_nil
  · rw [hsent, List.drop_left, List.mem_singleton] at hx
    obtain rfl := hx
    obtain rfl : reply = .chatNotify n := hn
    cases hfails

/-! ### Chats -/

/-- Messages that were sent stay sent, also where sending fails. -/
theorem sent_prefix_sendToAll (s : Server) (msg : Response) (ps : List PlayerId) :
    s.sent <+: (stateOf (s.sendToAll msg ps)).sent := by
  induction ps generalizing s with
  | nil => exact List.prefix_rfl
  | cons p ps ih =>
    rcases s.sendToPlayer_cases p msg with ⟨fault, hsend⟩ | ⟨sid, hsend⟩ <;> rw [sendToAll, hsend]
    · exact List.prefix_rfl
    · exact (List.prefix_append ..).trans (ih (s.send sid msg))

/-- A broadcast hands out a message if its first player resolves, and nothing if not. -/
theorem sent_sendToAll_cons (s : Server) (msg : Response) (p : PlayerId) (ps : List PlayerId) :
    ¬ s.core.Resolves p ∧ (stateOf (s.sendToAll msg (p :: ps))).sent = s.sent ∨
      s.core.Resolves p ∧
        ∃ x ∈ (stateOf (s.sendToAll msg (p :: ps))).sent.drop s.sent.length, x.2 = msg := by
  rcases s.sendToPlayer_cases p msg with ⟨fault, hsend⟩ | ⟨sid, hsend⟩
  · refine .inl ⟨fun hres => ?_, by rw [sendToAll, hsend]; rfl⟩
    rw [sendToPlayer_of_resolves hres] at hsend
    cases hsend
  · refine .inr ⟨resolves_of_sendToPlayer hsend, (sid, msg), ?_, rfl⟩
    obtain ⟨rest, hrest⟩ := (s.send sid msg).sent_prefix_sendToAll msg ps
    have hsent : (s.send sid msg).sent = s.sent ++ [(sid, msg)] := rfl
    rw [sendToAll, hsend]
    dsimp only
    rw [← hrest, hsent, List.append_assoc, List.drop_left]
    exact List.mem_cons_self ..

/-- **What a chat does before it returns or fails**: nothing, when there is no such room, or when
the first of its players does not resolve. -/
theorem undisturbed_chat_iff {s : Server} (hf : Formed s.core) (sid : SessionId) (req : ChatReq)
    (now : Instant) : s.Undisturbed (stateOf (s.handlePacket sid (.chat req) now)) ↔
      ∀ room, s.roomManager.getRoom (toInt req.roomId) = some room →
        ∀ p ∈ room.playerIds.head?, ¬ s.core.Resolves p := by
  have hquiet : ∀ s' : Server, s'.core = s.core → s'.sent = s.sent → s.Undisturbed s' :=
    fun s' hcore hsent => by
      refine ⟨hcore, fun x hx => ?_⟩
      rw [hsent, List.drop_length] at hx
      exact absurd hx List.not_mem_nil
  have hchat : s.handlePacket sid (.chat req) now =
      ChatService.handleChat (s.received sid now) sid req := rfl
  rw [hchat]
  simp only [ChatService.handleChat, addScore_frame]
  cases hroom : s.roomManager.getRoom (toInt req.roomId) with
  | none =>
    have hroom : (s.received sid now).roomManager.getRoom (toInt req.roomId) = none := hroom
    simp only [hroom]
    exact iff_of_true (hquiet _ rfl rfl) fun room hr => by cases hr
  | some room =>
    have hroom' : (s.received sid now).roomManager.getRoom (toInt req.roomId) = some room := hroom
    simp only [hroom', roomHandleChat, broadcast]
    obtain ⟨p, ps, hps⟩ := List.exists_cons_of_ne_nil (hf.getRoom hroom).ne_nil
    set before : Server := { s.received sid now with
      metrics := (s.received sid now).metrics.incrChatReq
      playerStateRepository := (s.received sid now).scored ((s.received sid now).session sid).playerId }
    set notify : Response := .chatNotify
      { roomId := room.roomId, playerId := (before.session sid).playerId, text := req.text }
    rw [hps]
    have hcore : (stateOf (before.sendToAll notify (p :: ps))).core = s.core := by
      obtain ⟨_, _, hstate⟩ := stateOf_sendToAll before notify (p :: ps)
      rw [hstate]
      rfl
    rcases before.sent_sendToAll_cons notify p ps with ⟨hno, hsent⟩ | ⟨hres, x, hx, hmsg⟩
    · refine iff_of_true (hquiet _ hcore hsent) fun room' hr q hq => ?_
      obtain rfl := Option.some.inj hr
      rw [hps] at hq
      obtain rfl := Option.some.inj hq
      exact hno
    · refine iff_of_false (fun hun => hun.2 x hx _ hmsg) fun hall => ?_
      exact hall room rfl p (by rw [hps]; rfl) hres

/-! ### Rankings -/

/-- A RankingReq is answered with every stored player. -/
def ListsAll (s : Server) (sid : SessionId) (req : RankingReq) (players : List PlayerState)
    (now : Instant) : Prop :=
  ∃ s' items, s.handlePacket sid (.ranking req players) now = .ok s' ∧
    s'.sent = s.sent ++ [(sid, .rankingResp { items := items })] ∧
    ∀ p ∈ s.playerStateRepository.states, p ∈ items.map RankingItem.playerId

/-- The ids in the reply to a RankingReq. -/
theorem ids_ranking {s s' : Server} {sid : SessionId} {req : RankingReq}
    {players : List PlayerState} {now : Instant} {items : List RankingItem}
    (hs : s.handlePacket sid (.ranking req players) now = .ok s')
    (hsent : s'.sent = s.sent ++ [(sid, .rankingResp { items := items })]) :
    items.map RankingItem.playerId =
      (players.take (min (toInt req.topN) (toInt players.length)).toNat).map PlayerState.playerId := by
  obtain rfl := Except.ok.inj hs
  rw [RankingService.items_handleRankingReq (s := s.received sid now) hsent, List.map_map]
  rfl

/-- **When a ranking lists everybody**: when there are no more players than the residue of
`top_n` counts. -/
theorem listsAll_iff {s : Server} (hk : s.playerStateRepository.Keyed)
    (hint : s.playerStateRepository.IntKeys) (sid : SessionId) (req : RankingReq)
    {players : List PlayerState} (hr : RankingService.Ranks s players) (now : Instant) :
    s.ListsAll sid req players now ↔
      (s.playerStateRepository.states.size : ℤ) ≤ max 0 (toInt req.topN) := by
  have hlen := hr.length_eq hk
  have htop := toInt_mem req.topN
  -- Below `2 ^ 31` players all of them are counted, and from there on none is.
  have hcast : s.playerStateRepository.states.size < 2 ^ 31 ∧
        toInt players.length = s.playerStateRepository.states.size ∨
      2 ^ 31 ≤ s.playerStateRepository.states.size ∧ toInt players.length ≤ 0 := by
    rw [hlen]
    rcases lt_or_ge s.playerStateRepository.states.size (2 ^ 31) with hsize | hsize
    · exact .inl ⟨hsize, toInt_of_lt (by omega) (by omega)⟩
    · exact .inr ⟨hsize, hint.toInt_size_le hsize⟩
  constructor
  · rintro ⟨s', items, hs, hsent, hlists⟩
    rw [ids_ranking hs hsent] at hlists
    have hsub : s.playerStateRepository.states.keys ⊆ ((players.take (min (toInt req.topN)
        (toInt players.length)).toNat).map PlayerState.playerId).toFinset := fun p hp =>
      List.mem_toFinset.2 (hlists p (Finmap.mem_keys.1 hp))
    have hcard := (Finset.card_le_card hsub).trans (List.toFinset_card_le _)
    rw [List.length_map, List.length_take] at hcard
    have hsize : s.playerStateRepository.states.keys.card = s.playerStateRepository.states.size := rfl
    omega
  · intro hle
    obtain ⟨⟨all, hall, hperm⟩, -⟩ := hr
    have hmem := (hall.players hk).2.2
    have hreply : ∃ s' items, s.handlePacket sid (.ranking req players) now = .ok s' ∧
        s'.sent = s.sent ++ [(sid, .rankingResp { items := items })] := ⟨_, _, rfl, rfl⟩
    obtain ⟨s', items, hs, hsent⟩ := hreply
    refine ⟨s', items, hs, hsent, fun p hp => ?_⟩
    obtain ⟨st, hst⟩ := Finmap.mem_iff.1 hp
    rw [ids_ranking hs hsent, List.take_of_length_le (by omega)]
    have hid : st.playerId = p := hk p st hst
    exact List.mem_map.2 ⟨st, hperm.mem_iff.2 ((hmem st).2 (hid ▸ hst)), hid⟩

/-- A request that is declined has no effect, and a request for an id that is not has. -/
theorem ignoresWideId_iff {s : Server} (hf : Formed s.core) (sid : SessionId) {req : Request}
    (now : Instant) {id : ℤ} (hid : req.namedId = some id) (hwide : Wide id) :
    s.IgnoresWideId sid req now ↔ s.Declines req := by
  constructor
  · intro hignores
    obtain ⟨s', hs, hun⟩ := hignores id hid hwide
    cases req with
    | «match» req => exact declines_match hs hun.1
    | reconnect req => exact declines_reconnect hs hun.1
    | chat req =>
      -- Nobody is disturbed by a chat only if its handler fails on the first player.
      have hchat := (undisturbed_chat_iff hf sid req now).1 (by rw [hs]; exact hun)
      obtain ⟨room, hroom, hres, -⟩ := handleChat_ok (s := s.received sid now) hs
      obtain ⟨p, ps, hps⟩ := List.exists_cons_of_ne_nil (hf.getRoom hroom).ne_nil
      rw [hps] at hres
      exact hchat room hroom p (by rw [hps]; rfl) (hres p (List.mem_cons_self ..))
    | login req | heartbeat req | ranking req players | unregistered msgId => cases hid
  · intro hd _ _ _
    obtain ⟨s', hs, hfails⟩ := onlyFails_of_declines hd sid now
    exact ⟨s', hs, hfails.undisturbed⟩

end Server

/-- **When an id that is no `int` is treated as unknown.**  In every reachable state, a request
is handled as the one with the congruent id.  A MatchReq, ChatReq or ReconnectReq for an id that
is no `int` is handled without effect exactly when the congruent one is declined, so never for a
chat; a chat has no effect before it fails exactly when no room has the congruent id or its first
player does not resolve.  A RankingReq for `2 ^ 31` players or more lists all of them exactly
when there are no more than the residue counts. -/
theorem wide_ids_iff {tr : History} {s : Server} (h : server.Run tr s) (sid : SessionId)
    (now : Instant) :
    (∀ req, s.handlePacket sid req now = s.handlePacket sid req.narrowed now) ∧
      (∀ req id, req.namedId = some id → Wide id →
        (s.IgnoresWideId sid req now ↔ s.Declines req)) ∧
      (∀ req : ChatReq, Wide req.roomId →
        (s.Undisturbed (stateOf (s.handlePacket sid (.chat req) now)) ↔
          ∀ room, s.roomManager.getRoom (toInt req.roomId) = some room →
            ∀ p ∈ room.playerIds.head?, ¬ s.core.Resolves p)) ∧
      ∀ req players, 2 ^ 31 ≤ req.topN → RankingService.Ranks s players →
        (s.ListsAll sid req players now ↔
          (s.playerStateRepository.states.size : ℤ) ≤ max 0 (toInt req.topN)) := by
  have hf := Formed.of_run h
  exact ⟨fun req => s.handlePacket_narrowed sid req now,
    fun _ _ hid hwide => Server.ignoresWideId_iff hf sid now hid hwide,
    fun req _ => Server.undisturbed_chat_iff hf sid req now,
    fun req _ _ hr => Server.listsAll_iff (Server.keyed_of_run h) (Server.intKeys_of_run h) sid req hr now⟩

/-- The first player waits already when a MatchReq names the id that is congruent to its own. -/
theorem wide_ids_iff_waiting : ∃ s : Server,
    s.IgnoresWideId 0 (.match { playerId := 10000 + 2 ^ 32 }) {} := by
  obtain ⟨tr, s, h, hq⟩ := Server.exists_run
    (Q := fun _ s => toInt (10000 + 2 ^ 32) ≤ 0 ∨ toInt (10000 + 2 ^ 32) ∈ s.matchQueue.inQueue)
    [.accept 0 {}, .request 0 (.login { username := [0x61] }) {},
      .request 0 (.match { playerId := 10000 }) {}] (by decide +kernel)
  exact ⟨s, ((wide_ids_iff h 0 {}).2.1 _ _ rfl (.inr (by decide))).2 hq⟩

/-- **Ids that are no `int` name players and rooms.**  After two players were matched, a MatchReq
for `10000 + 2 ^ 32` queues player 10000, a ChatReq for room `1 + 2 ^ 32` goes to both players of
room 1, and a RankingReq for `2 ^ 31` players does not list the two there are. -/
theorem wide_id_queues : ∃ tr s s' s'' players, server.Run tr s ∧
    server.step s (.request 0 (.match { playerId := 10000 + 2 ^ 32 }) {}) s' ∧
    s.matchQueue.queue = [] ∧ s'.matchQueue.queue = [10000] ∧
    ¬ s.IgnoresWideId 0 (.match { playerId := 10000 + 2 ^ 32 }) {} ∧
    server.step s (.request 0 (.chat { roomId := 1 + 2 ^ 32 }) {}) s'' ∧
    s''.sent = s.sent ++ [(0, .chatNotify { roomId := 1, playerId := 10000 }),
      (1, .chatNotify { roomId := 1, playerId := 10000 })] ∧
    ¬ s.IgnoresWideId 0 (.chat { roomId := 1 + 2 ^ 32 }) {} ∧
    RankingService.Ranks s players ∧ s.playerStateRepository.states.size = 2 ∧
    ¬ s.ListsAll 0 { topN := 2 ^ 31 } players {} := by
  obtain ⟨tr, s, s', h, hs, halive, hempty, hqueue, hwaits, ⟨s'', hs'', hsent⟩, horder, hsorted, hsize⟩ :=
    Server.exists_step (Q := fun _ s s' => s.alive 0 = true ∧ s.matchQueue.queue = [] ∧
      s'.matchQueue.queue = [10000] ∧
      ¬ (toInt (10000 + 2 ^ 32) ≤ 0 ∨ toInt (10000 + 2 ^ 32) ∈ s.matchQueue.inQueue) ∧
      (∃ s'' ∈ (s.step (.request 0 (.chat { roomId := 1 + 2 ^ 32 }) {})).toOption,
        s''.sent = s.sent ++ [(0, .chatNotify { roomId := 1, playerId := 10000 }),
          (1, .chatNotify { roomId := 1, playerId := 10000 })]) ∧
      s.playerStateRepository.states.Enumerates [10000, 10001] ∧
      ([10000, 10001].filterMap s.playerStateRepository.states.lookup).Pairwise
        (fun a b => b.score ≤ a.score) ∧
      s.playerStateRepository.states.size = 2)
    Server.pairUp (.request 0 (.match { playerId := 10000 + 2 ^ 32 }) {}) (by decide +kernel)
  have hf := Formed.of_run h
  have hr : RankingService.Ranks s _ := ⟨⟨_, ⟨_, horder, rfl⟩, .refl _⟩, hsorted⟩
  have hchat : s.step (.request 0 (.chat { roomId := 1 + 2 ^ 32 }) {}) = .ok s'' := by
    cases hstep : s.step (.request 0 (.chat { roomId := 1 + 2 ^ 32 }) {}) with
    | error c => rw [hstep] at hs''; cases hs''
    | ok s₁ => rw [hstep] at hs''; rw [Option.some.inj hs'']
  have hwide : Wide (10000 + 2 ^ 32) ∧ Wide (1 + 2 ^ 32) := ⟨.inr (by decide), .inr (by decide)⟩
  refine ⟨tr, s, s', s'', _, h, hs, hempty, hqueue, fun hign => ?_, ⟨⟨halive, trivial⟩, hchat⟩,
    hsent, (Server.ignoresWideId_iff hf 0 {} rfl hwide.2).1, hr, hsize, fun hlists => ?_⟩
  · exact hwaits ((Server.ignoresWideId_iff hf 0 {} rfl hwide.1).1 hign)
  · have hle := (Server.listsAll_iff (Server.keyed_of_run h) (Server.intKeys_of_run h) 0 _ hr {}).1 hlists
    rw [hsize] at hle
    exact absurd hle (by decide)

end GameServer
